import Mathlib.Data.List.Basic
import Mathlib.Data.List.Induction
import Sentential.Statement.Basic

/-!
# Assignments and their entries

However an assignment has been made and changed, its slots are those of the names it was made for,
each name once and in its first place: making puts them there, and no change of a value touches
them. Because no name has two slots, the entries say everything about the values: asking for a name
is looking it up among the entries. So assignments with the same entries answer alike, whatever
other names they declare without a value, and whatever statement they were made for. And since the
entries stand in the declared order, assignments that declare the same names and answer alike have
the same entries, whatever has been done to either.
-/

namespace Sentential

namespace Assignment

/-! ## Names without repetition

Each name is kept in its first place, so a name that comes last is kept if it is new. Looking up a
name finds its first pair; where every name has one pair, it finds all there is. -/

theorem eraseDups_concat (names : List Text) (x : Text) :
    (names ++ [x]).eraseDups = if x ∈ names then names.eraseDups else names.eraseDups ++ [x] := by
  rw [List.eraseDups_append, List.removeAll]
  split
  · next h => simp [h]
  · next h => simp [h, List.eraseDups_cons]

theorem nodup_eraseDups (names : List Text) : names.eraseDups.Nodup := by
  induction names using List.reverseRecOn with
  | nil => exact List.nodup_nil
  | append_singleton names x ih =>
      rw [eraseDups_concat]
      split
      · exact ih
      · next h => simpa [List.nodup_append, ih] using fun y hy (heq : y = x) => h (heq ▸ hy)

theorem eraseDups_of_nodup {names : List Text} (h : names.Nodup) : names.eraseDups = names := by
  induction names with
  | nil => rfl
  | cons name names ih =>
      obtain ⟨hname, hnames⟩ := List.nodup_cons.mp h
      have hfilter : names.filter (fun n => !n == name) = names :=
        List.filter_eq_self.mpr fun n hn => by
          have hne : n ≠ name := fun heq => hname (heq ▸ hn)
          simp [hne]
      rw [List.eraseDups_cons, hfilter, ih hnames]

theorem find?_eraseDups (names : List Text) (p : Text → Bool) :
    names.eraseDups.find? p = names.find? p := by
  induction names using List.reverseRecOn with
  | nil => rfl
  | append_singleton names x ih =>
      rw [eraseDups_concat, List.find?_append]
      split
      · next hx =>
          -- a name that is found again has been found before
          rw [ih, List.find?_singleton]
          cases hfound : names.find? p with
          | some y => rfl
          | none => simp [List.find?_eq_none.mp hfound x hx]
      · rw [List.find?_append, ih]

theorem filter_eraseDups (names : List Text) (p : Text → Bool) :
    names.eraseDups.filter p = (names.filter p).eraseDups := by
  induction names using List.reverseRecOn with
  | nil => rfl
  | append_singleton names x ih =>
      rw [List.filter_append, eraseDups_concat]
      cases hp : p x with
      | false => split <;> simpa [hp] using ih
      | true =>
          rw [List.filter_cons_of_pos hp, List.filter_nil, eraseDups_concat]
          by_cases hx : x ∈ names
          · rw [if_pos hx, if_pos (List.mem_filter.mpr ⟨hx, hp⟩), ih]
          · rw [if_neg hx, if_neg fun h => hx (List.mem_filter.mp h).1, List.filter_append, ih]
            simp [hp]

theorem eraseDups_append_eraseDups (names rest : List Text) :
    (names ++ rest.eraseDups).eraseDups = (names ++ rest).eraseDups := by
  rw [List.eraseDups_append, List.eraseDups_append, List.removeAll, List.removeAll,
    filter_eraseDups, eraseDups_of_nodup (nodup_eraseDups _)]

theorem lookup_cons_of_ne {β : Type} {x name : Text} (h : x ≠ name) (b : β)
    (pairs : List (Text × β)) : ((name, b) :: pairs).lookup x = pairs.lookup x := by
  rw [List.lookup_cons, beq_false_of_ne h]

theorem lookup_map_pair {β : Type} (names : List Text) (g : Text → β) (x : Text) :
    (names.map fun name => (name, g name)).lookup x = if x ∈ names then some (g x) else none := by
  induction names with
  | nil => rfl
  | cons name names ih =>
      rw [List.map_cons]
      by_cases hx : x = name
      · simp [hx]
      · rw [lookup_cons_of_ne hx, ih]
        simp [hx]

theorem map_fst_map_pair {β : Type} (names : List Text) (g : Text → β) :
    (names.map fun name => (name, g name)).map Prod.fst = names := by
  rw [List.map_map]
  exact List.map_id names

/-! ## The slots

Whatever is done to an assignment, its slots are those of the names it was made for. -/

theorem value?_slotsFor (names : List Text) (g : Text → Option Bool) (source : Option Text)
    (x : Text) :
    (Assignment.mk (slotsFor names g) source).value? x = if x ∈ names then g x else none := by
  rw [value?, slotsFor, lookup_map_pair]
  by_cases hx : x ∈ names
  · rw [if_pos (List.mem_eraseDups.mpr hx), if_pos hx]
    rfl
  · rw [if_neg fun h => hx (List.mem_eraseDups.mp h), if_neg hx]
    rfl

theorem map_fst_slotsFor (names : List Text) (g : Text → Option Bool) :
    (slotsFor names g).map Prod.fst = names.eraseDups := by
  rw [slotsFor, map_fst_map_pair]

theorem slotsFor_of_nodup {names : List Text} (h : names.Nodup) (g : Text → Option Bool) :
    slotsFor names g = names.map fun name => (name, g name) := by
  rw [slotsFor, eraseDups_of_nodup h]

/-- The assignments that can be made for a list of names: from settings or from the row of a table,
with no values or with all of them true, and by copying and changing those. -/
inductive MadeFor (names : List Text) (source : Option Text) : Assignment → Prop where
  | make {settings : Settings} {a : Assignment} (h : make names settings source = .ok a) :
      MadeFor names source a
  | empty : MadeFor names source (empty names source)
  | allTrue : MadeFor names source (allTrue names source)
  | ofRow (row : List Bool) : MadeFor names source (ofRow names row source)
  | copy {a : Assignment} (h : MadeFor names source a) : MadeFor names source a.copy
  | withValue {a b : Assignment} {key : Key} {value : Setting} (h : MadeFor names source a)
      (hb : a.withValue key value = .ok b) : MadeFor names source b
  | update {a b : Assignment} {settings : Settings} (h : MadeFor names source a)
      (hb : a.update settings = .ok b) : MadeFor names source b

theorem undeclared?_eq_none_iff {declared : List Text} {source : Option Text}
    {settings : Settings} :
    undeclared? declared source settings = none ↔ ∀ setting ∈ settings, setting.1 ∈ declared := by
  simp [undeclared?]

theorem make_eq_ok_iff {names : List Text} {settings : Settings} {source : Option Text}
    {a : Assignment} :
    make names settings source = .ok a ↔
      undeclared? names source settings = none ∧ ⟨slotsFor names settings.truth?, source⟩ = a := by
  unfold make
  cases undeclared? names source settings <;> simp

theorem update_eq_ok_iff {a b : Assignment} {settings : Settings} :
    a.update settings = .ok b ↔
      undeclared? a.declared a.source settings = none ∧
        ⟨a.slots.map fun slot => (slot.1, (settings.truth? slot.1).or slot.2), a.source⟩ = b := by
  unfold update
  cases undeclared? a.declared a.source settings <;> simp

theorem exists_of_withValue {a b : Assignment} {key : Key} {value : Setting}
    (h : a.withValue key value = .ok b) :
    ∃ name, key.name? = some name ∧ name ∈ a.declared ∧
      ⟨a.slots.map fun slot => if slot.1 = name then (slot.1, some value.holds) else slot,
        a.source⟩ = b := by
  rw [withValue] at h
  split at h
  · next name hname =>
      split at h
      · next hmem => exact ⟨name, hname, List.contains_iff_mem.mp hmem, Except.ok.inj h⟩
      · cases h
  · cases h

theorem madeFor_of_overridden {s : Statement} {settings : Settings} {a : Assignment}
    (h : s.overridden settings = .ok a) : MadeFor s.atoms (some s.text) a :=
  .update .allTrue h

theorem madeFor_of_assigning {s : Statement} {settings : Settings} {a : Assignment}
    (h : s.assigning settings = .ok a) : MadeFor s.atoms (some s.text) a :=
  .update .empty h

/-- Nothing that is done to an assignment changes which names it declares, nor the statement that
its failures name. -/
theorem declared_of_madeFor {names : List Text} {source : Option Text} {a : Assignment}
    (h : MadeFor names source a) : a.declared = names.eraseDups ∧ a.source = source := by
  induction h with
  | make h =>
      obtain ⟨-, rfl⟩ := make_eq_ok_iff.mp h
      exact ⟨map_fst_slotsFor _ _, rfl⟩
  | empty | allTrue | ofRow row => exact ⟨map_fst_slotsFor _ _, rfl⟩
  | @copy a h ih =>
      have hcopy : a.copy.declared = a.declared.eraseDups := map_fst_slotsFor _ _
      rw [hcopy, ih.1, eraseDups_of_nodup (nodup_eraseDups names)]
      exact ⟨rfl, ih.2⟩
  | withValue h hb ih =>
      obtain ⟨name, -, -, rfl⟩ := exists_of_withValue hb
      refine ⟨Eq.trans ?_ ih.1, ih.2⟩
      rw [declared, declared, List.map_map]
      refine List.map_congr_left fun slot _ => ?_
      show (if slot.1 = name then (slot.1, some _) else slot).1 = slot.1
      split <;> rfl
  | update h hb ih =>
      obtain ⟨-, rfl⟩ := update_eq_ok_iff.mp hb
      refine ⟨Eq.trans ?_ ih.1, ih.2⟩
      rw [declared, declared, List.map_map]
      rfl

theorem nodup_declared {names : List Text} {source : Option Text} {a : Assignment}
    (h : MadeFor names source a) : a.declared.Nodup := by
  rw [(declared_of_madeFor h).1]
  exact nodup_eraseDups names

/-! ## The entries -/

theorem lookup_eq_some_iff_mem {β : Type} {pairs : List (Text × β)}
    (h : (pairs.map Prod.fst).Nodup) {x : Text} {b : β} :
    pairs.lookup x = some b ↔ (x, b) ∈ pairs := by
  rw [List.lookup_eq_some_iff]
  refine ⟨fun ⟨l, r, hpairs, _⟩ => by simp [hpairs], fun hmem => ?_⟩
  obtain ⟨l, r, rfl⟩ := List.append_of_mem hmem
  refine ⟨l, r, rfl, fun p hp => ?_⟩
  -- an earlier pair with the name would be a second one
  rw [List.map_append, List.map_cons] at h
  have hne : p.1 ≠ x := (List.nodup_append.mp h).2.2 p.1 (List.mem_map_of_mem hp) x
    List.mem_cons_self
  simpa using hne.symm

/-- A name has a value exactly when it is entered with it. -/
theorem value?_eq_some_iff {a : Assignment} (h : a.declared.Nodup) {x : Text} {b : Bool} :
    a.value? x = some b ↔ (x, b) ∈ a.entries := by
  rw [value?, Option.join_eq_some_iff, lookup_eq_some_iff_mem h, entries, List.mem_filterMap]
  constructor
  · intro hx
    exact ⟨(x, some b), hx, rfl⟩
  · rintro ⟨⟨name, value⟩, hmem, hvalue⟩
    obtain ⟨c, rfl, hc⟩ := Option.map_eq_some_iff.mp hvalue
    cases hc
    exact hmem

theorem value?_of_mem_slots {a : Assignment} (h : a.declared.Nodup) {slot : Text × Option Bool}
    (hslot : slot ∈ a.slots) : a.value? slot.1 = slot.2 := by
  have hlookup : a.slots.lookup slot.1 = some slot.2 := (lookup_eq_some_iff_mem h).mpr hslot
  rw [value?, hlookup, Option.join_some]

/-- The entries are the declared names that have a value, in the declared order. -/
theorem entries_eq_filterMap {a : Assignment} (h : a.declared.Nodup) :
    a.entries = a.declared.filterMap fun x => (a.value? x).map (x, ·) := by
  rw [entries, declared, List.filterMap_map]
  refine List.filterMap_congr fun slot hslot => ?_
  show slot.2.map (slot.1, ·) = (a.value? slot.1).map (slot.1, ·)
  rw [value?_of_mem_slots h hslot]

theorem map_fst_entries {a : Assignment} (h : a.declared.Nodup) :
    a.entries.map Prod.fst = a.declared.filter fun x => (a.value? x).isSome := by
  rw [entries_eq_filterMap h, List.map_filterMap, ← List.filterMap_eq_filter]
  refine List.filterMap_congr fun x _ => ?_
  cases hx : a.value? x <;> simp [Option.guard, hx]

/-- The names have the truth values that `v` gives them. -/
def ofTruth (names : List Text) (v : Text → Bool) (source : Option Text) : Assignment :=
  ⟨names.map fun name => (name, some (v name)), source⟩

theorem ofTruth_congr {names : List Text} {v w : Text → Bool} (h : ∀ x ∈ names, v x = w x)
    (source : Option Text) : ofTruth names v source = ofTruth names w source := by
  rw [ofTruth, ofTruth, List.map_congr_left fun x hx => by rw [h x hx]]

theorem entries_ofTruth (names : List Text) (v : Text → Bool) (source : Option Text) :
    (ofTruth names v source).entries = names.map fun name => (name, v name) := by
  rw [entries, ofTruth, List.filterMap_map, ← List.filterMap_eq_map]
  rfl

theorem value?_ofTruth (names : List Text) (v : Text → Bool) (source : Option Text) (x : Text) :
    (ofTruth names v source).value? x = if x ∈ names then some (v x) else none := by
  rw [value?, ofTruth, lookup_map_pair]
  split <;> rfl

/-! ## Asking

There are three ways to ask for a variable: whether it has a value, for the value it must have, and
for the value if it has one. All three find what is entered under the name that the key stands for,
and nothing else. -/

theorem get?_eq_some_iff {a : Assignment} (h : a.declared.Nodup) {key : Key} {b : Bool} :
    a.get? key = some b ↔ ∃ x, key.name? = some x ∧ (x, b) ∈ a.entries := by
  rw [get?, Option.bind_eq_some_iff]
  exact exists_congr fun x => and_congr_right fun _ => value?_eq_some_iff h

theorem get_eq_ok_iff {a : Assignment} {key : Key} {b : Bool} :
    a.get key = .ok b ↔ a.get? key = some b := by
  rw [get, get?]
  cases key.name?.bind a.value? <;> simp

theorem contains_iff {a : Assignment} {key : Key} :
    a.contains key = true ↔ ∃ x, key.name? = some x ∧ x ∈ a.entries.map Prod.fst := by
  rw [contains, List.any_eq_true]
  constructor
  · rintro ⟨entry, hentry, hkey⟩
    exact ⟨entry.1, (beq_iff_eq.mp hkey).symm, List.mem_map_of_mem hentry⟩
  · rintro ⟨x, hkey, hx⟩
    obtain ⟨entry, hentry, rfl⟩ := List.mem_map.mp hx
    exact ⟨entry, hentry, beq_iff_eq.mpr hkey.symm⟩

/-- Assignments that declare the same names have the same entries when they answer alike. -/
theorem same_iff {a c : Assignment} (ha : a.declared.Nodup) (h : c.declared = a.declared) :
    a.same c = true ↔ ∀ x, a.get? (.name x) = c.get? (.name x) := by
  have hc : c.declared.Nodup := h ▸ ha
  rw [same, beq_iff_eq]
  constructor
  · intro hentries x
    refine Option.ext fun b => ?_
    rw [get?_eq_some_iff ha, get?_eq_some_iff hc, hentries]
  · intro hvalues
    rw [entries_eq_filterMap ha, entries_eq_filterMap hc, h]
    exact List.filterMap_congr fun x _ => congrArg (Option.map (x, ·)) (hvalues x)

/-- Whatever has been done to an assignment since it was made, it declares the names that it was
made for, each once. Its entries are some of these, in their order and none of them twice, each with
a truth value. A name or a variable is answered for, in any of the three ways, exactly when it is
entered, and with the value entered. So two assignments of the same names are the same exactly when
they give the same values to the same names, in whatever order and however often the values have
been set. -/
theorem entered_of_madeFor {names : List Text} {source : Option Text} {a : Assignment}
    (h : MadeFor names source a) :
    a.declared = names.eraseDups ∧ a.source = source ∧
    (a.entries.map Prod.fst).Sublist names.eraseDups ∧ (a.entries.map Prod.fst).Nodup ∧
    (∀ key : Key,
      (a.contains key = true ↔ ∃ x, key.name? = some x ∧ x ∈ a.entries.map Prod.fst) ∧
      (∀ b, a.get key = .ok b ↔ ∃ x, key.name? = some x ∧ (x, b) ∈ a.entries) ∧
      ∀ b, a.get? key = some b ↔ ∃ x, key.name? = some x ∧ (x, b) ∈ a.entries) ∧
    ∀ c : Assignment, c.declared = a.declared →
      (a.same c = true ↔ ∀ x, a.get? (.name x) = c.get? (.name x)) := by
  have hnodup := nodup_declared h
  obtain ⟨hdeclared, hsource⟩ := declared_of_madeFor h
  have hsublist : (a.entries.map Prod.fst).Sublist a.declared := by
    rw [map_fst_entries hnodup]
    exact List.filter_sublist
  refine ⟨hdeclared, hsource, hdeclared ▸ hsublist, hsublist.nodup hnodup, fun key => ?_,
    fun c hc => same_iff hnodup hc⟩
  exact ⟨contains_iff, fun b => get_eq_ok_iff.trans (get?_eq_some_iff hnodup),
    fun b => get?_eq_some_iff hnodup⟩

theorem entered_of_madeFor_set_twice :
    let names : List Text := [['q'], ['p'], ['q'], ['r']]
    let s : Statement := ⟨['T'], .literal ['T'], names, []⟩
    let t : Statement := ⟨['F'], .literal ['F'], names, []⟩
    ∃ a b c, s.overridden [(['r'], .absent), (['p'], .whole 0)] = .ok a ∧
      a.withValue (.atom ['r']) (.text ['F']) = .ok b ∧
      t.assigning [(['r'], .list []), (['q'], .flag true), (['p'], .absent), (['r'], .whole 2)] =
        .ok c ∧
      (b.entries.map Prod.fst).Sublist [['q'], ['p'], ['r']] ∧ b.contains (.name ['z']) = false ∧
      c.get (.atom ['p']) = .ok false ∧ ∀ x, b.get? (.name x) = c.get? (.name x) := by
  intro names s t
  let a : Assignment := ⟨[(['q'], some true), (['p'], some false), (['r'], some false)], some ['T']⟩
  let b : Assignment := ⟨[(['q'], some true), (['p'], some false), (['r'], some true)], some ['T']⟩
  let c : Assignment := ⟨b.slots, some ['F']⟩
  have ha : s.overridden [(['r'], .absent), (['p'], .whole 0)] = .ok a := rfl
  have hb : a.withValue (.atom ['r']) (.text ['F']) = .ok b := rfl
  have hc : t.assigning
      [(['r'], .list []), (['q'], .flag true), (['p'], .absent), (['r'], .whole 2)] = .ok c := rfl
  obtain ⟨-, -, hsublist, -, hkey, hsame⟩ :=
    entered_of_madeFor (.withValue (madeFor_of_overridden ha) hb)
  obtain ⟨-, -, -, -, hkey', -⟩ := entered_of_madeFor (madeFor_of_assigning hc)
  have hz : ¬ b.contains (.name ['z']) = true := by
    rw [(hkey _).1]
    decide
  have hp : c.get (.atom ['p']) = .ok false :=
    ((hkey' (.atom ['p'])).2.1 false).mpr ⟨['p'], rfl, by decide⟩
  exact ⟨a, b, c, ha, hb, hc, hsublist, Bool.eq_false_iff.mpr hz, hp, (hsame c rfl).mp (by decide)⟩

end Assignment

end Sentential
