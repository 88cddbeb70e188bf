import Mathlib.Data.List.Nodup
import Sentential.Proofs.Entries
import Sentential.Proofs.Meaning

/-!
# Changes one after another

An update is described by the names it asks for, in the order of its settings, and by the values
that it lays over those that are there. Both compose: one update after another asks for the names of
the first and then for those of the second, and it lays the values of the second over those of the
first. So it is the update with the settings of both in a row, and to set one value is the update
with one setting; every sequence of changes is one update (`changed_eq`).

What remains is that settings in a row say what a dictionary says into which they are put one by
one, where a name keeps its place and takes the last of its values. That is how a list of settings
is normalized, so normalizing changes nothing, and two dictionaries are merged by putting the
settings of the second into the first.
-/

namespace Sentential

namespace Settings

/-! ## Dictionaries -/

theorem value?_append (v w : Settings) (x : Text) :
    (v ++ w).value? x = (w.value? x).or (v.value? x) := by
  rw [value?, List.reverse_append, List.lookup_append]
  rfl

theorem truth?_append (v w : Settings) (x : Text) :
    (v ++ w).truth? x = (w.truth? x).or (v.truth? x) := by
  rw [truth?, value?_append, Option.map_or]
  rfl

theorem truth?_eq_none {v : Settings} {x : Text} (h : x ∉ v.names) : v.truth? x = none := by
  rw [truth?, Option.map_eq_none_iff, value?, List.lookup_eq_none_iff]
  intro setting hsetting
  have hx : setting.1 ∈ v.names :=
    List.mem_eraseDups.mpr (List.mem_map_of_mem (List.mem_reverse.mp hsetting))
  exact bne_iff_ne.mpr fun heq => h (heq ▸ hx)

/-- The dictionary with another value for one name, which keeps its place, or comes last if it is
new. -/
def put : Settings → Text → Setting → Settings
  | [], name, value => [(name, value)]
  | (x, b) :: rest, name, value =>
    if x = name then (x, value) :: rest else (x, b) :: put rest name value

/-- The dictionary into which settings have been put, one after another. -/
def merge (d v : Settings) : Settings :=
  v.foldl (fun d setting => d.put setting.1 setting.2) d

theorem lookup_put (d : Settings) (name : Text) (value : Setting) (x : Text) :
    (d.put name value).lookup x = if x = name then some value else d.lookup x := by
  induction d with
  | nil =>
      by_cases hx : x = name
      · rw [put, if_pos hx, hx, List.lookup_cons_self]
      · rw [put, if_neg hx, Assignment.lookup_cons_of_ne hx]
  | cons setting d ih =>
      obtain ⟨y, b⟩ := setting
      rw [put]
      by_cases hx : x = y
      · subst hx
        split <;> simp
      · rw [Assignment.lookup_cons_of_ne hx b d]
        split
        · next hy => rw [Assignment.lookup_cons_of_ne hx, if_neg fun h => hx (h.trans hy.symm)]
        · rw [Assignment.lookup_cons_of_ne hx, ih]

theorem map_fst_put (d : Settings) (name : Text) (value : Setting) :
    (d.put name value).map Prod.fst =
      if name ∈ d.map Prod.fst then d.map Prod.fst else d.map Prod.fst ++ [name] := by
  induction d with
  | nil => rfl
  | cons setting d ih =>
      obtain ⟨y, b⟩ := setting
      rw [put]
      by_cases hy : y = name
      · simp [hy]
      · rw [if_neg hy, List.map_cons, List.map_cons, ih]
        by_cases hd : name ∈ d.map Prod.fst
        · rw [if_pos hd, if_pos (List.mem_cons_of_mem _ hd)]
        · have hcons : name ∉ y :: d.map Prod.fst := by simp [Ne.symm hy, hd]
          rw [if_neg hd, if_neg hcons, List.cons_append]

theorem merge_append (d v w : Settings) : d.merge (v ++ w) = (d.merge v).merge w :=
  List.foldl_append

theorem lookup_merge (d v : Settings) (x : Text) :
    (d.merge v).lookup x = (v.value? x).or (d.lookup x) := by
  induction v using List.reverseRecOn with
  | nil => rfl
  | append_singleton v setting ih =>
      obtain ⟨name, value⟩ := setting
      have hstep : d.merge (v ++ [(name, value)]) = (d.merge v).put name value := merge_append ..
      rw [hstep, lookup_put, value?_append, ih]
      by_cases hx : x = name
      · subst hx
        simp [value?]
      · have hnone : value? [(name, value)] x = none := Assignment.lookup_cons_of_ne hx value []
        rw [if_neg hx, hnone, Option.none_or]

theorem map_fst_merge (d v : Settings) (h : (d.map Prod.fst).Nodup) :
    (d.merge v).map Prod.fst = (d.map Prod.fst ++ v.map Prod.fst).eraseDups := by
  induction v using List.reverseRecOn with
  | nil => rw [List.map_nil, List.append_nil, Assignment.eraseDups_of_nodup h]; rfl
  | append_singleton v setting ih =>
      obtain ⟨name, value⟩ := setting
      have hstep : d.merge (v ++ [(name, value)]) = (d.merge v).put name value := merge_append ..
      rw [hstep, map_fst_put, ih, List.map_append, ← List.append_assoc, List.map_singleton,
        Assignment.eraseDups_concat]
      simp only [List.mem_eraseDups]

theorem nodup_merge (d v : Settings) (h : (d.map Prod.fst).Nodup) :
    ((d.merge v).map Prod.fst).Nodup := by
  rw [map_fst_merge d v h]
  exact Assignment.nodup_eraseDups _

/-- A dictionary is what it has for its names, in their order. -/
theorem eq_filterMap_lookup {d : Settings} (h : (d.map Prod.fst).Nodup) :
    d = (d.map Prod.fst).filterMap fun x => (d.lookup x).map (x, ·) := by
  rw [List.filterMap_map]
  refine Eq.trans (List.filterMap_some (l := d)).symm (List.filterMap_congr fun setting hs => ?_)
  have hlookup : d.lookup setting.1 = some setting.2 :=
    (Assignment.lookup_eq_some_iff_mem h).mpr hs
  rw [Function.comp_apply, hlookup]
  rfl

theorem ext_of_lookup {d e : Settings} (h : (d.map Prod.fst).Nodup)
    (hnames : d.map Prod.fst = e.map Prod.fst) (hlookup : ∀ x, d.lookup x = e.lookup x) : d = e := by
  refine (eq_filterMap_lookup h).trans (Eq.trans ?_ (eq_filterMap_lookup (hnames ▸ h)).symm)
  rw [hnames]
  exact List.filterMap_congr fun x _ => by rw [hlookup]

/-- The settings that count are the dictionary into which all are put. -/
theorem normalized_eq (v : Settings) : v.normalized = merge [] v := by
  rw [eq_filterMap_lookup (nodup_merge [] v List.nodup_nil), map_fst_merge [] v List.nodup_nil]
  refine List.filterMap_congr fun x _ => ?_
  rw [lookup_merge, List.lookup_nil, Option.or_none]

theorem map_fst_normalized (v : Settings) : v.normalized.map Prod.fst = v.names := by
  rw [normalized_eq, map_fst_merge [] v List.nodup_nil]
  rfl

theorem nodup_normalized (v : Settings) : (v.normalized.map Prod.fst).Nodup := by
  rw [map_fst_normalized]
  exact Assignment.nodup_eraseDups _

theorem value?_of_nodup {d : Settings} (h : (d.map Prod.fst).Nodup) (x : Text) :
    d.value? x = d.lookup x := by
  have hreverse : (d.reverse.map Prod.fst).Nodup := by
    rwa [List.map_reverse, List.nodup_reverse]
  refine Option.ext fun b => ?_
  rw [value?, Assignment.lookup_eq_some_iff_mem hreverse, Assignment.lookup_eq_some_iff_mem h,
    List.mem_reverse]

theorem value?_normalized (v : Settings) (x : Text) : v.normalized.value? x = v.value? x := by
  rw [value?_of_nodup v.nodup_normalized, normalized_eq, lookup_merge, List.lookup_nil,
    Option.or_none]

/-- A dictionary merged with another is the settings of both in a row, normalized. -/
theorem merge_normalized (v w : Settings) :
    v.normalized.merge w.normalized = (v ++ w).normalized := by
  have happend : (v ++ w).normalized = v.normalized.merge w := by
    rw [normalized_eq, merge_append, ← normalized_eq]
  have hnodup := v.nodup_normalized
  rw [happend]
  refine ext_of_lookup (nodup_merge _ _ hnodup) ?_ fun x => ?_
  · rw [map_fst_merge _ _ hnodup, map_fst_merge _ _ hnodup, map_fst_normalized w, names,
      Assignment.eraseDups_append_eraseDups]
  · rw [lookup_merge, lookup_merge, value?_normalized]

end Settings

/-! ## Updates -/

namespace Assignment

variable (a : Assignment) (v w : Settings)

/-- The assignment with the values of settings laid over its own. -/
def overlaid : Assignment :=
  { a with slots := a.slots.map fun slot => (slot.1, (v.truth? slot.1).or slot.2) }

theorem declared_overlaid : (a.overlaid v).declared = a.declared := by
  rw [declared, overlaid, List.map_map]
  rfl

theorem overlaid_append : (a.overlaid v).overlaid w = a.overlaid (v ++ w) := by
  simp only [overlaid, List.map_map, Settings.truth?_append, Option.or_assoc, Function.comp_def]

theorem update_eq :
    a.update v = whenKnown a.declared.contains a.source (v.map Prod.fst) (a.overlaid v) := by
  rw [update, undeclared?, whenKnown, List.find?_map]
  simp only [Function.comp_def]
  cases v.find? fun setting => !a.declared.contains setting.1 <;> rfl

theorem update_nil : a.update [] = .ok a := by
  rw [update_eq, overlaid]
  exact congrArg (fun slots => Except.ok (Assignment.mk slots a.source)) (List.map_id a.slots)

theorem update_append : (a.update v).bind (·.update w) = a.update (v ++ w) := by
  rw [update_eq a v, update_eq a (v ++ w), List.map_append]
  refine whenKnown_bind_of_eq ?_
  rw [update_eq, declared_overlaid, overlaid_append]
  rfl

theorem update_normalized : a.update v.normalized = a.update v := by
  have hoverlaid : a.overlaid v.normalized = a.overlaid v := by
    simp only [overlaid, Settings.truth?, Settings.value?_normalized]
  rw [update_eq, update_eq, hoverlaid, Settings.map_fst_normalized, whenKnown, whenKnown,
    Settings.names, find?_eraseDups]

/-- The failure names the first of some names that is not declared. -/
def Misses (a : Assignment) (names : List Text) (u : Undefined) : Prop :=
  ∃ before x after, names = before ++ x :: after ∧ (∀ y ∈ before, y ∈ a.declared) ∧
    x ∉ a.declared ∧ u = ⟨.name x, a.source⟩

theorem exists_misses_iff {names : List Text} :
    (∃ u, a.Misses names u) ↔ ∃ x ∈ names, x ∉ a.declared := by
  constructor
  · rintro ⟨u, before, x, after, rfl, -, hx, -⟩
    exact ⟨x, List.mem_append_right _ List.mem_cons_self, hx⟩
  · rintro ⟨x, hx, hmissing⟩
    have hfound : (names.find? fun y => !a.declared.contains y).isSome :=
      List.find?_isSome.mpr ⟨x, hx, by simpa using hmissing⟩
    obtain ⟨y, hy⟩ := Option.isSome_iff_exists.mp hfound
    obtain ⟨hy, before, after, hnames, hbefore⟩ := List.find?_eq_some_iff_append.mp hy
    exact ⟨_, before, y, after, hnames, fun z hz => by simpa using hbefore z hz,
      by simpa using hy, rfl⟩

theorem update_eq_error_iff {u : Undefined} : a.update v = .error u ↔ a.Misses v.names u := by
  rw [← update_normalized, update_eq, whenKnown_eq_error_iff, Settings.map_fst_normalized]
  simp only [Misses, List.contains_iff_mem, Bool.eq_false_iff, ne_eq]

/-- To set one value is the update with one setting. -/
theorem withValue_eq_update (name : Text) (value : Setting) :
    a.withValue (.name name) value = a.update [(name, value)] := by
  have hslots : (a.slots.map fun slot =>
      if slot.1 = name then (slot.1, some value.holds) else slot) =
      a.slots.map fun slot => (slot.1, (Settings.truth? [(name, value)] slot.1).or slot.2) := by
    refine List.map_congr_left fun slot _ => ?_
    rw [Settings.truth?, Settings.value?, List.reverse_singleton]
    split
    · next h => rw [h, List.lookup_cons_self]; rfl
    · next h => rw [lookup_cons_of_ne h]; rfl
  rw [update_eq, overlaid, ← hslots, whenKnown, List.map_singleton, List.find?_singleton, withValue,
    Key.name?]
  dsimp only
  cases a.declared.contains name <;> rfl

/-- Where no declared name has a setting in both, and one of the two has settings of declared names
only, it does not matter which comes first. -/
theorem update_comm {v w : Settings}
    (hdisjoint : ∀ x ∈ a.declared, x ∈ v.names → x ∉ w.names)
    (hdeclared : (∀ x ∈ v.names, x ∈ a.declared) ∨ ∀ x ∈ w.names, x ∈ a.declared) :
    (a.update v).bind (·.update w) = (a.update w).bind (·.update v) := by
  have hoverlaid : a.overlaid (v ++ w) = a.overlaid (w ++ v) := by
    refine congrArg (Assignment.mk · a.source) (List.map_congr_left fun slot hslot => ?_)
    have hvalues : (v ++ w).truth? slot.1 = (w ++ v).truth? slot.1 := by
      rw [Settings.truth?_append, Settings.truth?_append]
      by_cases hv : slot.1 ∈ v.names
      · rw [Settings.truth?_eq_none (hdisjoint _ (List.mem_map_of_mem hslot) hv), Option.none_or,
          Option.or_none]
      · rw [Settings.truth?_eq_none hv, Option.none_or, Option.or_none]
    rw [hvalues]
  have hfind : ∀ u : Settings, (∀ x ∈ u.names, x ∈ a.declared) →
      (u.map Prod.fst).find? (fun x => !a.declared.contains x) = none := by
    intro u hu
    rw [← find?_eraseDups, List.find?_eq_none]
    exact fun x hx => by simp [hu x hx]
  rw [update_append, update_append, update_eq, update_eq, hoverlaid, whenKnown, whenKnown,
    List.map_append, List.map_append, List.find?_append, List.find?_append]
  rcases hdeclared with hv | hw
  · rw [hfind v hv, Option.none_or, Option.or_none]
  · rw [hfind w hw, Option.none_or, Option.or_none]

end Assignment

/-! ## Sequences of changes -/

/-- A change of values: of one, or of several at once. -/
inductive Change where
  | set (name : Text) (value : Setting)
  | update (settings : Settings)

namespace Change

/-- What the change sets. -/
def settings : Change → Settings
  | set name value => [(name, value)]
  | update settings => settings

/-- The assignment after the change. -/
def apply (a : Assignment) : Change → Except Undefined Assignment
  | set name value => a.withValue (.name name) value
  | update settings => a.update settings

theorem apply_eq (a : Assignment) (c : Change) : c.apply a = a.update c.settings := by
  cases c with
  | set name value => exact a.withValue_eq_update name value
  | update settings => rfl

end Change

namespace Assignment

/-- The assignment after several changes, the first of which that fails ends them. -/
def changed (a : Assignment) : List Change → Except Undefined Assignment
  | [] => .ok a
  | c :: cs =>
    match c.apply a with
    | .error u => .error u
    | .ok b => b.changed cs

/-- Every sequence of changes is one update. -/
theorem changed_eq (a : Assignment) (cs : List Change) :
    a.changed cs = a.update (cs.flatMap Change.settings) := by
  induction cs generalizing a with
  | nil => exact a.update_nil.symm
  | cons c cs ih =>
      rw [changed, List.flatMap_cons, ← update_append, c.apply_eq]
      cases a.update c.settings with
      | error u => rfl
      | ok b => exact ih b

/-- Setting the values of a dictionary one by one is the update with it. -/
theorem changed_sets (a : Assignment) (v : Settings) :
    a.changed (v.map fun setting => .set setting.1 setting.2) = a.update v := by
  rw [changed_eq, List.flatMap_map]
  exact congrArg a.update (List.flatMap_singleton' v)

end Assignment

end Sentential
