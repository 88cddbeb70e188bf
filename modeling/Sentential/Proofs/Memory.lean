import Sentential.Proofs.Updates

/-!
# Assignments in memory

As an object an assignment holds the place of a dictionary with its values, and a dictionary can be
changed where it is. Setting a value and updating copy the dictionary first, put the new values into
the copy, and have an object made from it; an update that fails half-way has put some of them. The
object gets yet another dictionary, with truth values in the declared order, and for it all names
are checked again.

`Held.Shows` says that an object stands for an assignment. The two changes lead from there to an
object that stands for the changed assignment, and fail where the change fails and alike. They do so
in new dictionaries only: a memory continues the one before it. So whatever a sequence of changes
leads to, and wherever it fails, every object stands for what it stood for, the first of the
sequence among them.
-/

namespace Sentential

/-- The dictionaries in the order in which they were made. -/
abbrev Memory := List Settings

/-- An assignment as an object: what it declares, where the dictionary of its values is, and the
text of the statement. -/
structure Held where
  declared : List Text
  place : Nat
  source : Option Text

namespace Memory

/-- Makes an object from the dictionary at a place, all of whose names must be declared. Its values
are a new dictionary. -/
def construct (m : Memory) (names : List Text) (place : Nat) (source : Option Text) :
    Memory × Except Undefined Held :=
  let d := m.getD place []
  match Assignment.undeclared? names source d with
  | some u => (m, .error u)
  | none =>
    (m ++ [names.eraseDups.filterMap fun x => (d.lookup x).map fun value => (x, .flag value.holds)],
      .ok ⟨names.eraseDups, m.length, source⟩)

/-- Puts settings into the dictionary at a place, up to the first whose name is not declared. -/
def enter (m : Memory) (h : Held) (place : Nat) : Settings → Memory × Option Undefined
  | [] => (m, none)
  | (name, value) :: rest =>
    if h.declared.contains name then enter (m.modify place (·.put name value)) h place rest
    else (m, some ⟨.name name, h.source⟩)

/-- The object with another value for one name. -/
def withValue (m : Memory) (h : Held) (name : Text) (value : Setting) :
    Memory × Except Undefined Held :=
  if h.declared.contains name then
    construct ((m ++ [m.getD h.place []]).modify m.length (·.put name value)) h.declared m.length
      h.source
  else (m, .error ⟨.name name, h.source⟩)

/-- The object with other values for all names that have a setting. -/
def update (m : Memory) (h : Held) (settings : Settings) : Memory × Except Undefined Held :=
  match enter (m ++ [m.getD h.place []]) h m.length settings.normalized with
  | (m', some u) => (m', .error u)
  | (m', none) => construct m' h.declared m.length h.source

/-- The object after a change. -/
def apply (m : Memory) (h : Held) : Change → Memory × Except Undefined Held
  | .set name value => m.withValue h name value
  | .update settings => m.update h settings

/-- The object after several changes, the first of which that fails ends them. -/
def changed (m : Memory) (h : Held) : List Change → Memory × Except Undefined Held
  | [] => (m, .ok h)
  | c :: cs =>
    match m.apply h c with
    | (m', .error u) => (m', .error u)
    | (m', .ok h') => changed m' h' cs

end Memory

/-- The dictionary with the values of an assignment, in the declared order. -/
def Assignment.values (a : Assignment) : Settings :=
  a.entries.map fun entry => (entry.1, .flag entry.2)

/-- The object stands for the assignment. -/
structure Held.Shows (h : Held) (m : Memory) (a : Assignment) : Prop where
  nodup : a.declared.Nodup
  declared : h.declared = a.declared
  source : h.source = a.source
  values : m[h.place]? = some a.values

/-- What has come out in a memory is an object that stands for an assignment that comes out, or the
same failure. -/
inductive Memory.Shows : Memory × Except Undefined Held → Except Undefined Assignment → Prop where
  | ok {m : Memory} {h : Held} {a : Assignment} (hs : h.Shows m a) : Shows (m, .ok h) (.ok a)
  | error (m : Memory) (u : Undefined) : Shows (m, .error u) (.error u)

/-- Any memory can be continued with an object that stands for an assignment. -/
theorem Held.shows_append {a : Assignment} (h : a.declared.Nodup) (m : Memory) :
    Held.Shows ⟨a.declared, m.length, a.source⟩ (m ++ [a.values]) a :=
  ⟨h, rfl, rfl, List.getElem?_concat_length⟩

theorem Held.Shows.of_prefix {h : Held} {m m' : Memory} {a : Assignment} (hs : h.Shows m a)
    (hm : m <+: m') : h.Shows m' a := by
  obtain ⟨rest, rfl⟩ := hm
  obtain ⟨hplace, -⟩ := List.getElem?_eq_some_iff.mp hs.values
  exact ⟨hs.nodup, hs.declared, hs.source, (List.getElem?_append_left hplace).trans hs.values⟩

namespace Assignment

theorem map_fst_values (a : Assignment) : a.values.map Prod.fst = a.entries.map Prod.fst := by
  rw [values, List.map_map]
  rfl

theorem nodup_values {a : Assignment} (h : a.declared.Nodup) :
    (a.values.map Prod.fst).Nodup := by
  rw [map_fst_values, map_fst_entries h]
  exact h.filter _

theorem lookup_values {a : Assignment} (h : a.declared.Nodup) (x : Text) :
    a.values.lookup x = (a.value? x).map .flag := by
  refine Option.ext fun value => ?_
  rw [lookup_eq_some_iff_mem (nodup_values h), Option.map_eq_some_iff, values, List.mem_map]
  constructor
  · rintro ⟨⟨y, b⟩, hentry, heq⟩
    cases heq
    exact ⟨b, (value?_eq_some_iff h).mpr hentry, rfl⟩
  · rintro ⟨b, hb, rfl⟩
    exact ⟨(x, b), (value?_eq_some_iff h).mp hb, rfl⟩

theorem truth?_merge {a : Assignment} (h : a.declared.Nodup) (v : Settings)
    {slot : Text × Option Bool} (hslot : slot ∈ a.slots) :
    (a.values.merge v).truth? slot.1 = (v.truth? slot.1).or slot.2 := by
  have hnodup := Settings.nodup_merge a.values v (nodup_values h)
  rw [Settings.truth?, Settings.value?_of_nodup hnodup, Settings.lookup_merge, lookup_values h,
    value?_of_mem_slots h hslot, Option.map_or, Option.map_map, Settings.truth?]
  exact congrArg _ Option.map_id'

theorem undeclared?_merge {a : Assignment} (h : a.declared.Nodup) {v : Settings}
    (hv : undeclared? a.declared a.source v = none) :
    undeclared? a.declared a.source (a.values.merge v) = none := by
  refine undeclared?_eq_none_iff.mpr fun setting hsetting => ?_
  have hname := List.mem_map_of_mem (f := Prod.fst) hsetting
  rw [Settings.map_fst_merge a.values v (nodup_values h), List.mem_eraseDups, List.mem_append,
    map_fst_values, map_fst_entries h] at hname
  rcases hname with hentry | hset
  · exact (List.mem_filter.mp hentry).1
  · obtain ⟨setting', hsetting', heq⟩ := List.mem_map.mp hset
    exact heq ▸ undeclared?_eq_none_iff.mp hv setting' hsetting'

/-- An update makes the assignment anew, from its values merged with the settings. -/
theorem make_merge {a : Assignment} (h : a.declared.Nodup) {v : Settings}
    (hv : undeclared? a.declared a.source v = none) :
    make a.declared (a.values.merge v) a.source = a.update v := by
  have hslots : slotsFor a.declared (a.values.merge v).truth? = (a.overlaid v).slots := by
    rw [slotsFor_of_nodup h, declared, List.map_map]
    exact List.map_congr_left fun slot hslot =>
      congrArg (Prod.mk slot.1) (truth?_merge h v hslot)
  rw [make, undeclared?_merge h hv, update, hv, hslots, overlaid]

end Assignment

namespace Memory

variable {m : Memory} {h : Held} {a : Assignment}

theorem getD_of_getElem? {place : Nat} {d : Settings} (hd : m[place]? = some d) :
    m.getD place [] = d := by
  rw [List.getD_eq_getElem?_getD, hd, Option.getD_some]

theorem construct_shows {d : Settings} {place : Nat} (hd : m[place]? = some d)
    (hnodup : (d.map Prod.fst).Nodup) (names : List Text) (source : Option Text) :
    m <+: (m.construct names place source).1 ∧
      Shows (m.construct names place source) (Assignment.make names d source) := by
  rw [construct, Assignment.make, getD_of_getElem? hd]
  cases Assignment.undeclared? names source d with
  | some u => exact ⟨List.prefix_rfl, .error m u⟩
  | none =>
      refine ⟨List.prefix_append _ _, .ok ⟨?_, ?_, rfl, ?_⟩⟩
      · rw [Assignment.declared, Assignment.map_fst_slotsFor]
        exact Assignment.nodup_eraseDups names
      · exact (Assignment.map_fst_slotsFor _ _).symm
      · rw [List.getElem?_concat_length, Assignment.values, Assignment.entries,
          Assignment.slotsFor, List.filterMap_map, List.map_filterMap]
        refine congrArg some (List.filterMap_congr fun x _ => ?_)
        rw [Function.comp_apply, Settings.truth?, Settings.value?_of_nodup hnodup]
        cases d.lookup x <;> rfl

theorem modify_last (m : Memory) (d : Settings) (f : Settings → Settings) :
    (m ++ [d]).modify m.length f = m ++ [f d] := by
  induction m with
  | nil => rfl
  | cons d' m ih => exact congrArg (d' :: ·) ih

/-- The copy holds all settings, if all names are declared. -/
theorem enter_append (m : Memory) (h : Held) (d settings : Settings) :
    ∃ e, enter (m ++ [d]) h m.length settings =
        (m ++ [e], Assignment.undeclared? h.declared h.source settings) ∧
      (Assignment.undeclared? h.declared h.source settings = none → e = d.merge settings) := by
  induction settings generalizing d with
  | nil => exact ⟨d, rfl, fun _ => rfl⟩
  | cons setting settings ih =>
      obtain ⟨name, value⟩ := setting
      rw [enter, modify_last, Assignment.undeclared?, List.find?_cons]
      cases hname : h.declared.contains name with
      | false => exact ⟨d, rfl, fun hnone => absurd hnone (Option.some_ne_none _)⟩
      | true => exact ih (d.put name value)

/-- A copy is made into an object that stands for the updated assignment. -/
theorem construct_copy_shows (hs : h.Shows m a) {v : Settings}
    (hv : Assignment.undeclared? a.declared a.source v = none) {m' : Memory}
    (hm' : m' = m ++ [a.values.merge v]) :
    m <+: (m'.construct h.declared m.length h.source).1 ∧
      Shows (m'.construct h.declared m.length h.source) (a.update v) := by
  have hd : m'[m.length]? = some (a.values.merge v) := hm' ▸ List.getElem?_concat_length
  obtain ⟨hgrows, hshows⟩ := construct_shows hd
    (Settings.nodup_merge _ v (Assignment.nodup_values hs.nodup)) h.declared h.source
  rw [hs.declared, hs.source, Assignment.make_merge hs.nodup hv] at hshows
  rw [hs.declared, hs.source] at hgrows ⊢
  exact ⟨List.IsPrefix.trans (hm' ▸ List.prefix_append _ _) hgrows, hshows⟩

/-- A change makes new dictionaries only, and in them the object that stands for the changed
assignment. -/
theorem apply_shows (hs : h.Shows m a) (c : Change) :
    m <+: (m.apply h c).1 ∧ Shows (m.apply h c) (c.apply a) := by
  have hvalues := getD_of_getElem? hs.values
  cases c with
  | set name value =>
      rw [apply, withValue, hvalues, modify_last]
      by_cases hname : name ∈ a.declared
      · have hv : Assignment.undeclared? a.declared a.source [(name, value)] = none :=
          Assignment.undeclared?_eq_none_iff.mpr (List.forall_mem_singleton.mpr hname)
        rw [if_pos (hs.declared ▸ List.contains_iff_mem.mpr hname), Change.apply_eq]
        exact construct_copy_shows hs hv rfl
      · have hcontains : ¬ a.declared.contains name = true := by
          rwa [List.contains_iff_mem]
        have hfail : (Change.set name value).apply a = .error ⟨.name name, a.source⟩ :=
          if_neg hcontains
        rw [hs.declared, if_neg hcontains, hfail, hs.source]
        exact ⟨List.prefix_rfl, .error m _⟩
  | update settings =>
      obtain ⟨e, henter, he⟩ := enter_append m h a.values settings.normalized
      rw [apply, update, hvalues, henter, Change.apply, ← a.update_normalized]
      rw [hs.declared, hs.source] at he ⊢
      cases hv : Assignment.undeclared? a.declared a.source settings.normalized with
      | some u =>
          rw [Assignment.update, hv]
          exact ⟨List.prefix_append _ _, .error _ u⟩
      | none =>
          rw [← hs.declared, ← hs.source]
          exact construct_copy_shows hs hv (by rw [he hv])

theorem changed_shows (hs : h.Shows m a) (cs : List Change) :
    m <+: (m.changed h cs).1 ∧ Shows (m.changed h cs) (a.changed cs) := by
  induction cs generalizing m h a with
  | nil => exact ⟨List.prefix_rfl, .ok hs⟩
  | cons c cs ih =>
      obtain ⟨hgrows, hshows⟩ := apply_shows hs c
      rw [changed, Assignment.changed]
      generalize m.apply h c = r, c.apply a = out at hgrows hshows ⊢
      cases hshows with
      | @ok m' h' b hs' =>
          obtain ⟨hrest, hshows'⟩ := ih hs'
          exact ⟨List.IsPrefix.trans hgrows hrest, hshows'⟩
      | error m' u => exact ⟨hgrows, .error m' u⟩

end Memory

namespace Assignment

/-- Updating with a dictionary is setting its values one by one. Updating twice is updating with the
two dictionaries merged, in which the second wins and names keep their first places, and where they
have no declared name in common, and names that are not declared in one of them at most, the order
of the two does not matter. Updates fail exactly where some name is not declared, at the first in
the order of the dictionary. And whatever changes are made to an object that stands for the
assignment, what comes out stands for the changed assignment, or fails as it does, while all
objects, the changed one among them, stand for what they stood for. -/
theorem update_laws (a : Assignment) (v w : Settings) :
    a.changed (v.normalized.map fun setting => .set setting.1 setting.2) = a.update v ∧
    (a.update v).bind (·.update w) = a.update (v.normalized.merge w.normalized) ∧
    ((∀ x ∈ a.declared, x ∈ v.names → x ∉ w.names) →
      ((∀ x ∈ v.names, x ∈ a.declared) ∨ ∀ x ∈ w.names, x ∈ a.declared) →
      (a.update v).bind (·.update w) = (a.update w).bind (·.update v)) ∧
    (∀ names, (∃ u, a.Misses names u) ↔ ∃ x ∈ names, x ∉ a.declared) ∧
    (∀ u, a.update v = .error u ↔ a.Misses v.names u) ∧
    (∀ u, (a.update v).bind (·.update w) = .error u ↔
      a.Misses ((v.normalized.merge w.normalized).map Prod.fst) u) ∧
    ∀ (m : Memory) (h : Held), h.Shows m a → ∀ cs : List Change,
      Memory.Shows (m.changed h cs) (a.changed cs) ∧
      ∀ (g : Held) (b : Assignment), g.Shows m b → g.Shows (m.changed h cs).1 b := by
  have hmerged : (a.update v).bind (·.update w) = a.update (v.normalized.merge w.normalized) := by
    rw [update_append, Settings.merge_normalized, update_normalized]
  refine ⟨?_, hmerged, a.update_comm, fun names => a.exists_misses_iff,
    fun u => a.update_eq_error_iff v, fun u => ?_, fun m h hs cs => ?_⟩
  · rw [changed_sets, update_normalized]
  · rw [update_append, update_eq_error_iff, Settings.merge_normalized, Settings.map_fst_normalized]
  · obtain ⟨hgrows, hshows⟩ := Memory.changed_shows hs cs
    exact ⟨hshows, fun g b hg => hg.of_prefix hgrows⟩

theorem update_laws_half_way :
    let a : Assignment := allTrue [['p'], ['q']] none
    let h : Held := ⟨[['p'], ['q']], 0, none⟩
    let v : Settings := [(['q'], .whole 0), (['z'], .absent), (['p'], .text [])]
    ∃ m : Memory, h.Shows m a ∧ a.update v = .error ⟨.name ['z'], none⟩ ∧
      (m.update h v).1 = m ++ [[(['p'], .flag true), (['q'], .whole 0)]] ∧
      h.Shows (m.changed h [.update v]).1 a := by
  intro a h v
  have hs : h.Shows [a.values] a := Held.shows_append (a := a) (by decide) []
  obtain ⟨-, -, -, -, hfails, -, hmemory⟩ := update_laws a v []
  have hmisses : a.Misses v.names ⟨.name ['z'], none⟩ :=
    ⟨[['q']], ['z'], [['p']], by decide, by decide, by decide, rfl⟩
  exact ⟨[a.values], hs, (hfails _).mpr hmisses, rfl, (hmemory _ h hs [.update v]).2 h a hs⟩

end Assignment

end Sentential
