import Mathlib.Control.Monad.Basic
import Mathlib.Data.List.Forall2
import Sentential.Proofs.Words

/-!
# The longest lexeme wins

The lexer never measures a lexeme. It asks first whether a word is a lexeme as a whole, then which
kind comes first, then which spelling of it. What comes out is nevertheless the longest lexeme that
may stand where it does, and no choice it makes can spoil the rest of the word.

Both are facts about how lexemes lie inside each other. Take two lexemes of which one begins the
other, so that it does not run on in it. A word of letters begins no longer word of letters without
running on, and hardly any sign begins another: what remains is `&` in `&&`, the bar in the double
bar, and a marker before its parenthesis. The first two are the ones whose spellings are listed
longest first, or in an earlier kind, and the third takes up the whole of a word, since nothing is
ever glued behind a parenthesis. In all other cases there is one lexeme to choose from.
-/

namespace Sentential

namespace Token

/-- A text that some kind is spelled as, from its first to its last character. -/
def IsLexeme (marker : Option Char) (v : Text) : Prop :=
  ∃ k : Kind, v ∈ k.spellings marker v

/-- A lexeme that may stand before `s`: its last character and the first one of `s` are not both
word characters. -/
def Admissible (marker : Option Char) (v s : Text) : Prop :=
  IsLexeme marker v ∧ ∀ a b, v.getLast? = some a → s.head? = some b →
    ¬ (Text.isWordChar a = true ∧ Text.isWordChar b = true)

/-- No longer beginning of the text is an admissible lexeme than `v`, which stands before `s`. -/
def Longest (marker : Option Char) (v s : Text) : Prop :=
  Admissible marker v s ∧
    ∀ u r, v ++ s = u ++ r → Admissible marker u r → u.length ≤ v.length

/-- The first kind, in the order in which kinds are tried, of which the text is a lexeme. -/
def FirstKind (marker : Option Char) (v : Text) (k : Kind) : Prop :=
  v ∈ k.spellings marker v ∧
    ∃ earlier later, Kind.all = earlier ++ k :: later ∧ ∀ j ∈ earlier, v ∉ j.spellings marker v

/-- Something is left, and no beginning of it is an admissible lexeme. -/
def Stuck (marker : Option Char) (r : Text) : Prop :=
  r ≠ [] ∧ ∀ v s, r = v ++ s → ¬ Admissible marker v s

/-- Taking the longest admissible lexeme off the text, again and again, gives these tokens and
leaves that rest. -/
inductive Munches (marker : Option Char) : Text → List Token → Text → Prop where
  | stop (r : Text) : Munches marker r [] r
  | step {v s r : Text} {k : Kind} {ts : List Token} (hlongest : Longest marker v s)
      (hkind : FirstKind marker v k) (h : Munches marker s ts r) :
      Munches marker (v ++ s) (⟨k, v⟩ :: ts) r

/-- The text can be cut into lexemes, each of them admissible before what follows it. -/
inductive Splits (marker : Option Char) : Text → Prop where
  | nil : Splits marker []
  | cons {v s : Text} (hv : Admissible marker v s) (hs : Splits marker s) :
      Splits marker (v ++ s)

/-! ## The lexemes

Those of most kinds are listed. Beside them there are the parenthesis with its marker, and the
variables; and what a list holds can be checked sign by sign. -/

variable {marker : Option Char}

/-- The lexemes that do not depend on a marker and are no variables. -/
def signs : List Text :=
  Kind.all.flatMap (Kind.spellings none [])

theorem mem_all (k : Kind) : k ∈ Kind.all := by
  cases k with
  | connective op => cases op <;> decide
  | negation | openParen | closeParen | literal | var => decide

theorem spellings_var_cons (a : Char) (w : Text) :
    Kind.var.spellings marker (a :: w) = if Text.isWordChar a = true then [[a]] else [] := by
  by_cases ha : Text.isWordChar a = true
  · simp [Kind.spellings, ha]
  · simp [Kind.spellings, ha]

theorem mem_spellings_var {v : Text} :
    v ∈ Kind.var.spellings marker v ↔ ∃ c, Text.isWordChar c = true ∧ v = [c] := by
  cases v with
  | nil => simp [Kind.spellings]
  | cons a v =>
      rw [spellings_var_cons]
      constructor
      · intro h
        split at h
        · next ha => exact ⟨a, ha, List.mem_singleton.mp h⟩
        · exact absurd h List.not_mem_nil
      · rintro ⟨c, hc, hv⟩
        rw [hv]
        injection hv with hac _
        rw [hac, if_pos hc]
        exact List.mem_singleton.mpr rfl

theorem mem_spellings_openParen {v w : Text} :
    v ∈ Kind.openParen.spellings marker w ↔ v = ['('] ∨ ∃ m, marker = some m ∧ v = [m, '('] := by
  cases marker with
  | none => simp [Kind.spellings]
  | some m => simp [Kind.spellings, or_comm]

theorem spellings_eq {k : Kind} (hopen : k ≠ .openParen) (hvar : k ≠ .var) (w : Text) :
    k.spellings marker w = k.spellings none [] := by
  cases k with
  | openParen => exact absurd rfl hopen
  | var => exact absurd rfl hvar
  | connective op => cases op <;> rfl
  | negation | closeParen | literal => rfl

theorem mem_signs_of_mem_spellings {k : Kind} {v w : Text} (hopen : k ≠ .openParen)
    (hvar : k ≠ .var) (h : v ∈ k.spellings marker w) : v ∈ signs := by
  rw [spellings_eq hopen hvar] at h
  exact List.mem_flatMap.mpr ⟨k, mem_all k, h⟩

theorem isLexeme_iff {v : Text} :
    IsLexeme marker v ↔ v ∈ signs ∨ (∃ m, marker = some m ∧ v = [m, '(']) ∨
      ∃ c, Text.isWordChar c = true ∧ v = [c] := by
  constructor
  · rintro ⟨k, hk⟩
    by_cases hopen : k = .openParen
    · subst hopen
      rcases mem_spellings_openParen.mp hk with rfl | hm
      · exact .inl (by decide)
      · exact .inr (.inl hm)
    · by_cases hvar : k = .var
      · subst hvar
        exact .inr (.inr (mem_spellings_var.mp hk))
      · exact .inl (mem_signs_of_mem_spellings hopen hvar hk)
  · rintro (hv | hv | hv)
    · obtain ⟨k, -, hk⟩ := List.mem_flatMap.mp hv
      refine ⟨k, ?_⟩
      by_cases hopen : k = .openParen
      · subst hopen
        exact mem_spellings_openParen.mpr (.inl (by simpa [Kind.spellings] using hk))
      · by_cases hvar : k = .var
        · subst hvar
          exact absurd hk (by simp [Kind.spellings])
        · rwa [spellings_eq hopen hvar]
    · exact ⟨.openParen, mem_spellings_openParen.mpr (.inr hv)⟩
    · exact ⟨.var, mem_spellings_var.mpr hv⟩

theorem ne_nil_of_mem_signs : ∀ v ∈ signs, v ≠ [] := by decide

theorem eq_paren_of_mem_signs : ∀ v ∈ signs, '(' ∈ v → v = ['('] := by decide

theorem all_isWordChar_of_mem_signs :
    ∀ v ∈ signs, v.head?.any Text.isWordChar = true → v.all Text.isWordChar = true := by
  decide +kernel

theorem eq_of_sign_in_sign : ∀ v ∈ signs, ∀ u ∈ signs, u.isPrefixOf v = true →
    u.length < v.length → Text.endsBefore u (v.drop u.length) = true →
      v = ['&', '&'] ∨ v = ['|', '|'] := by
  decide +kernel

theorem ne_nil_of_isLexeme {v : Text} (h : IsLexeme marker v) : v ≠ [] := by
  rcases isLexeme_iff.mp h with hv | ⟨m, -, rfl⟩ | ⟨c, -, rfl⟩
  · exact ne_nil_of_mem_signs v hv
  · simp
  · simp

theorem endsBefore_iff {v s : Text} :
    Text.endsBefore v s = true ↔ ∀ a b, v.getLast? = some a → s.head? = some b →
      ¬ (Text.isWordChar a = true ∧ Text.isWordChar b = true) := by
  unfold Text.endsBefore
  cases v.getLast? <;> cases s.head? <;> simp [Classical.or_iff_not_imp_left]

/-- Where a lexeme begins a longer one without running on in it, the longer one is one of three. -/
theorem eq_of_lexeme_in_lexeme {u s : Text} {x : Char} (hu : Admissible marker u (x :: s))
    (hv : IsLexeme marker (u ++ x :: s)) :
    u ++ x :: s = ['&', '&'] ∨ u ++ x :: s = ['|', '|'] ∨
      ∃ m, u ++ x :: s = [m, '('] := by
  have hne := ne_nil_of_isLexeme hu.1
  rcases isLexeme_iff.mp hv with hsign | ⟨m, -, hm⟩ | ⟨c, -, hc⟩
  · rcases isLexeme_iff.mp hu.1 with hsign' | ⟨m, -, rfl⟩ | ⟨c, hc, rfl⟩
    · have hcut := eq_of_sign_in_sign _ hsign u hsign' (by simp) (by simp)
        (by simpa using endsBefore_iff.mpr hu.2)
      exact hcut.imp_right .inl
    · have := eq_paren_of_mem_signs _ hsign (by simp)
      simp at this
    · have hall := all_isWordChar_of_mem_signs _ hsign (by simp [hc])
      have hx : Text.isWordChar x = true := by simp at hall; exact hall.2.1
      exact absurd ⟨hc, hx⟩ (hu.2 c x rfl rfl)
  · exact .inr (.inr ⟨m, hm⟩)
  · have hlen := congrArg List.length hc
    have hpos := List.length_pos_iff.mpr hne
    simp only [List.length_append, List.length_cons, List.length_nil] at hlen
    omega

/-! ## Which lexeme a word gives up

Wherever else a word could be cut, that is inside its longest admissible lexeme, and then this is
one of the doubled signs or takes up all of the word. In a word that is no lexeme as a whole the
longest admissible lexeme is the only one, but for the two doubled signs. -/

theorem cut_of_longest {u v r s : Text} (hlast : (v ++ s).OpensLast) (hv : Longest marker v s)
    (heq : v ++ s = u ++ r) (hu : Admissible marker u r) :
    (u = v ∧ r = s) ∨ ∃ x t, v = u ++ x :: t ∧ r = x :: t ++ s ∧
      (v = ['&', '&'] ∨ v = ['|', '|'] ∨ s = []) := by
  have hle := hv.2 u r heq hu
  rcases List.append_eq_append_iff.mp heq with ⟨w, rfl, rfl⟩ | ⟨w, rfl, rfl⟩
  · rw [List.length_append] at hle
    have hw : w = [] := List.eq_nil_of_length_eq_zero (by omega)
    subst hw
    exact .inl ⟨List.append_nil v, rfl⟩
  · cases w with
    | nil => exact .inl ⟨(List.append_nil u).symm, rfl⟩
    | cons x t =>
        have hcut : Admissible marker u (x :: t) := ⟨hu.1, fun a b ha hb => hu.2 a b ha hb⟩
        refine .inr ⟨x, t, rfl, rfl, ?_⟩
        rcases eq_of_lexeme_in_lexeme hcut hv.1.1 with h | h | ⟨m, h⟩
        · exact .inl h
        · exact .inr (.inl h)
        · rw [h] at hlast
          exact .inr (.inr (hlast [m] s rfl))

theorem eq_of_admissible {u v r s : Text} (hlast : (v ++ s).OpensLast) (hs : s ≠ [])
    (hv : Longest marker v s) (hand : v ≠ ['&', '&']) (hor : v ≠ ['|', '|'])
    (heq : v ++ s = u ++ r) (hu : Admissible marker u r) : u = v := by
  rcases cut_of_longest hlast hv heq hu with ⟨huv, -⟩ | ⟨x, t, -, -, h | h | h⟩
  · exact huv
  · exact absurd h hand
  · exact absurd h hor
  · exact absurd h hs

theorem wholeKind?_eq_some_iff {v : Text} {k : Kind} :
    wholeKind? marker v = some k ↔ FirstKind marker v k := by
  rw [wholeKind?, List.find?_eq_some_iff_append]
  simp [FirstKind]

theorem wholeKind?_eq_none_iff {v : Text} : wholeKind? marker v = none ↔ ¬ IsLexeme marker v := by
  simp only [wholeKind?, List.find?_eq_none, List.contains_iff_mem, IsLexeme, not_exists]
  exact ⟨fun h k => h k (mem_all k), fun h k _ => h k⟩

theorem exists_firstKind {v : Text} (h : IsLexeme marker v) : ∃ k, FirstKind marker v k := by
  cases hk : wholeKind? marker v with
  | none => exact absurd h (wholeKind?_eq_none_iff.mp hk)
  | some k => exact ⟨k, wholeKind?_eq_some_iff.mp hk⟩

/-- What a kind may be spelled as at the beginning of a text it is spelled as on its own. -/
theorem mem_spellings_append {k : Kind} {v s : Text} (hv : v ≠ []) :
    v ∈ k.spellings marker (v ++ s) ↔ v ∈ k.spellings marker v := by
  obtain ⟨c, v, rfl⟩ := List.exists_cons_of_ne_nil hv
  cases k with
  | connective op => cases op <;> rfl
  | negation | openParen | closeParen | literal | var => rfl

theorem begins_append_iff {v s : Text} :
    Text.begins v (v ++ s) = true ↔ v ≠ [] ∧ Text.endsBefore v s = true := by
  simp [Text.begins]

theorem exists_append_of_begins {v w : Text} (h : Text.begins v w = true) : ∃ s, w = v ++ s := by
  simp only [Text.begins, Bool.and_eq_true, List.isPrefixOf_iff_prefix] at h
  obtain ⟨s, hs⟩ := h.1.2
  exact ⟨s, hs.symm⟩

theorem admissible_of_begins {k : Kind} {v s : Text} (hk : v ∈ k.spellings marker (v ++ s))
    (h : Text.begins v (v ++ s) = true) : Admissible marker v s := by
  obtain ⟨hne, hends⟩ := begins_append_iff.mp h
  exact ⟨⟨k, (mem_spellings_append hne).mp hk⟩, endsBefore_iff.mp hends⟩

theorem headOfKind?_of_unique {k : Kind} {v s : Text} (hv : Admissible marker v s)
    (hunique : ∀ u r, v ++ s = u ++ r → Admissible marker u r → u = v) :
    headOfKind? marker (v ++ s) k = if v ∈ k.spellings marker v then some ⟨k, v⟩ else none := by
  have hne := ne_nil_of_isLexeme hv.1
  have hfound : ∀ u ∈ k.spellings marker (v ++ s), Text.begins u (v ++ s) = true → u = v := by
    intro u hmem hu
    obtain ⟨r, hr⟩ := exists_append_of_begins hu
    rw [hr] at hmem hu
    exact hunique u r hr (admissible_of_begins hmem hu)
  rw [headOfKind?]
  cases hfind : (k.spellings marker (v ++ s)).find? (Text.begins · (v ++ s)) with
  | none =>
      rw [List.find?_eq_none] at hfind
      rw [if_neg fun hmem => hfind v ((mem_spellings_append hne).mpr hmem)
        (begins_append_iff.mpr ⟨hne, endsBefore_iff.mpr hv.2⟩)]
      rfl
  | some u =>
      have hmem := List.mem_of_find?_eq_some hfind
      have hbegins := List.find?_some hfind
      have hu := hfound u hmem hbegins
      subst hu
      rw [if_pos ((mem_spellings_append hne).mp hmem)]
      rfl

theorem head?_of_unique {k : Kind} {v s : Text} (hv : Admissible marker v s)
    (hunique : ∀ u r, v ++ s = u ++ r → Admissible marker u r → u = v)
    (hk : FirstKind marker v k) : head? marker (v ++ s) = some ⟨k, v⟩ := by
  obtain ⟨hmem, earlier, later, hall, hearlier⟩ := hk
  rw [head?, List.findSome?_eq_some_iff]
  refine ⟨earlier, k, later, hall, ?_, fun j hj => ?_⟩
  · rw [headOfKind?_of_unique hv hunique, if_pos hmem]
  · rw [headOfKind?_of_unique hv hunique, if_neg (hearlier j hj)]

theorem head?_doubleAnd (s : Text) :
    head? marker ('&' :: '&' :: s) = some ⟨.connective .and, ['&', '&']⟩ := by
  cases s <;> rfl

theorem head?_doubleBar (s : Text) :
    head? marker ('|' :: '|' :: s) = some ⟨.connective .or, ['|', '|']⟩ := by
  cases s <;> rfl

theorem firstKind_unique {v : Text} {j k : Kind} (hj : FirstKind marker v j)
    (hk : FirstKind marker v k) : j = k := by
  rw [← wholeKind?_eq_some_iff] at hj hk
  rw [hj] at hk
  exact Option.some.inj hk

theorem firstKind_doubleAnd : FirstKind marker ['&', '&'] (.connective .and) :=
  wholeKind?_eq_some_iff.mp rfl

theorem firstKind_doubleBar : FirstKind marker ['|', '|'] (.connective .or) :=
  wholeKind?_eq_some_iff.mp rfl

theorem head?_of_longest {k : Kind} {v s : Text} (hlast : (v ++ s).OpensLast) (hs : s ≠ [])
    (hv : Longest marker v s) (hk : FirstKind marker v k) :
    head? marker (v ++ s) = some ⟨k, v⟩ := by
  by_cases hand : v = ['&', '&']
  · subst hand
    rw [firstKind_unique hk firstKind_doubleAnd]
    exact head?_doubleAnd s
  · by_cases hor : v = ['|', '|']
    · subst hor
      rw [firstKind_unique hk firstKind_doubleBar]
      exact head?_doubleBar s
    · exact head?_of_unique hv.1
        (fun u r heq hu => eq_of_admissible hlast hs hv hand hor heq hu) hk

/-! ## The equations of the lexer

A word is empty, or no admissible lexeme begins it, or the longest one is taken off. -/

theorem lexWord_eq (word : Text) :
    lexWord marker word =
      if word = [] then .ok []
      else
        match wholeKind? marker word with
        | some k => .ok [⟨k, word⟩]
        | none =>
          match head? marker word with
          | none => .error (.unknownToken word)
          | some t =>
            match lexWord marker (word.drop t.lexeme.length) with
            | .error e => .error e
            | .ok ts => .ok (t :: ts) := by
  rw [lexWord]
  by_cases hw : word = []
  · rw [if_pos hw, if_pos hw]
  · rw [if_neg hw, if_neg hw]
    cases wholeKind? marker word with
    | some k => rfl
    | none =>
        dsimp only
        split
        · next hhead => rw [hhead]
        · next t hhead =>
            cases hrest : lexWord marker (word.drop t.lexeme.length) <;> simp only [hhead, hrest]

theorem lexWord_nil : lexWord marker [] = .ok [] := by
  rw [lexWord_eq, if_pos rfl]

theorem lexWord_stuck {r : Text} (h : Stuck marker r) :
    lexWord marker r = .error (.unknownToken r) := by
  obtain ⟨hr, hnone⟩ := h
  have hwhole : wholeKind? marker r = none :=
    wholeKind?_eq_none_iff.mpr fun h =>
      hnone r [] (List.append_nil r).symm ⟨h, fun a b _ hb => nomatch hb⟩
  have hhead : head? marker r = none := by
    cases h : head? marker r with
    | none => rfl
    | some t =>
        obtain ⟨k, -, hk⟩ := List.exists_of_findSome?_eq_some h
        obtain ⟨v, hv, rfl⟩ := Option.map_eq_some_iff.mp hk
        have hbegins := List.find?_some hv
        have hmem := List.mem_of_find?_eq_some hv
        obtain ⟨s, hs⟩ := exists_append_of_begins hbegins
        rw [hs] at hmem hbegins
        exact absurd (admissible_of_begins hmem hbegins) (hnone v s hs)
  rw [lexWord_eq, if_neg hr, hwhole, hhead]

theorem lexWord_append {k : Kind} {v s : Text} (hlast : (v ++ s).OpensLast)
    (hv : Longest marker v s) (hk : FirstKind marker v k) :
    lexWord marker (v ++ s) = (lexWord marker s).map (⟨k, v⟩ :: ·) := by
  have hne := ne_nil_of_isLexeme hv.1.1
  by_cases hs : s = []
  · subst hs
    rw [List.append_nil, lexWord_eq, if_neg hne, wholeKind?_eq_some_iff.mpr hk, lexWord_nil]
    rfl
  · have hwhole : wholeKind? marker (v ++ s) = none := by
      refine wholeKind?_eq_none_iff.mpr fun h => hs ?_
      have hle := hv.2 (v ++ s) [] (List.append_nil _).symm ⟨h, fun a b _ hb => nomatch hb⟩
      rw [List.length_append] at hle
      exact List.eq_nil_of_length_eq_zero (by omega)
    rw [lexWord_eq, if_neg (by simp [hne]), hwhole, head?_of_longest hlast hs hv hk]
    simp only [List.drop_left]
    cases lexWord marker s <;> rfl

theorem exists_longest {u r : Text} (hu : Admissible marker u r) :
    ∃ v s, u ++ r = v ++ s ∧ Longest marker v s := by
  induction hn : r.length using Nat.strongRecOn generalizing u r with
  | ind n ih =>
      by_cases hlonger : ∃ u' r', u ++ r = u' ++ r' ∧ Admissible marker u' r' ∧
          u.length < u'.length
      · obtain ⟨u', r', heq, hu', hlt⟩ := hlonger
        have hlen := congrArg List.length heq
        simp only [List.length_append] at hlen
        obtain ⟨v, s, hvs, hv⟩ := ih r'.length (by omega) hu' rfl
        exact ⟨v, s, heq.trans hvs, hv⟩
      · refine ⟨u, r, rfl, hu, fun u' r' heq hu' => ?_⟩
        exact Nat.le_of_not_lt fun hlt => hlonger ⟨u', r', heq, hu', hlt⟩

/-- A word is empty, or gives up its longest admissible lexeme, or has none to give. -/
theorem munch_cases (r : Text) :
    r = [] ∨ Stuck marker r ∨ ∃ k v s, r = v ++ s ∧ Longest marker v s ∧ FirstKind marker v k := by
  by_cases hr : r = []
  · exact .inl hr
  · by_cases hnone : ∀ v s, r = v ++ s → ¬ Admissible marker v s
    · exact .inr (.inl ⟨hr, hnone⟩)
    · simp only [Classical.not_forall, Classical.not_not] at hnone
      obtain ⟨u, r', rfl, hu⟩ := hnone
      obtain ⟨v, s, hvs, hv⟩ := exists_longest hu
      obtain ⟨k, hk⟩ := exists_firstKind hv.1.1
      exact .inr (.inr ⟨k, v, s, hvs, hv, hk⟩)

/-! ## One word -/

theorem lexWord_of_munches {w r : Text} {ts : List Token} (h : Munches marker w ts r)
    (hlast : w.OpensLast) : lexWord marker w = (lexWord marker r).map (ts ++ ·) := by
  induction h with
  | stop r => cases lexWord marker r <;> rfl
  | step hlongest hkind h ih =>
      rw [lexWord_append hlast hlongest hkind, ih hlast.suffix]
      cases lexWord marker _ <;> rfl

theorem munches_of_lexWord (w : Text) (hlast : w.OpensLast) :
    (∃ ts, lexWord marker w = .ok ts ∧ Munches marker w ts []) ∨
      ∃ ts r, lexWord marker w = .error (.unknownToken r) ∧ Munches marker w ts r ∧
        Stuck marker r := by
  induction hn : w.length using Nat.strongRecOn generalizing w with
  | ind n ih =>
      rcases @munch_cases marker w with rfl | hstuck | ⟨k, v, s, rfl, hv, hk⟩
      · exact .inl ⟨[], lexWord_nil, .stop []⟩
      · exact .inr ⟨[], w, lexWord_stuck hstuck, .stop w, hstuck⟩
      · have hpos := List.length_pos_iff.mpr (ne_nil_of_isLexeme hv.1.1)
        rw [List.length_append] at hn
        rw [lexWord_append hlast hv hk]
        rcases ih s.length (by omega) s hlast.suffix rfl with
          ⟨ts, hts, hm⟩ | ⟨ts, r, hts, hm, hstuck⟩
        · exact .inl ⟨⟨k, v⟩ :: ts, by rw [hts]; rfl, .step hv hk hm⟩
        · exact .inr ⟨⟨k, v⟩ :: ts, r, by rw [hts]; rfl, .step hv hk hm, hstuck⟩

theorem lexWord_eq_ok_iff {w : Text} (hlast : w.OpensLast) {ts : List Token} :
    lexWord marker w = .ok ts ↔ Munches marker w ts [] := by
  constructor
  · intro h
    rcases munches_of_lexWord w hlast with ⟨us, hus, hm⟩ | ⟨us, r, hus, -⟩
    · rw [h] at hus
      cases hus
      exact hm
    · rw [h] at hus
      cases hus
  · intro h
    rw [lexWord_of_munches h hlast, lexWord_nil]
    exact congrArg Except.ok (List.append_nil ts)

theorem lexWord_eq_error_iff {w : Text} (hlast : w.OpensLast) {e : CompileError} :
    lexWord marker w = .error e ↔
      ∃ ts r, Munches marker w ts r ∧ Stuck marker r ∧ e = .unknownToken r := by
  constructor
  · intro h
    rcases munches_of_lexWord w hlast with ⟨us, hus, -⟩ | ⟨us, r, hus, hm, hstuck⟩
    · rw [h] at hus
      cases hus
    · rw [h] at hus
      cases hus
      exact ⟨us, r, hm, hstuck, rfl⟩
  · rintro ⟨ts, r, hm, hstuck, rfl⟩
    rw [lexWord_of_munches hm hlast, lexWord_stuck hstuck]
    rfl

/-! ## The longest lexeme spoils nothing

Where some other cut of a word begins with a shorter lexeme than the longest, the longest is one of
the two doubled signs, or a marked parenthesis that ends the word. Half of a doubled sign may be
dropped from a text that can be cut: what is glued to it is a lexeme without it. -/

theorem splits_of_munches {w r : Text} {ts : List Token} (h : Munches marker w ts r) :
    Splits marker r → Splits marker w := by
  induction h with
  | stop r => exact id
  | step hlongest hkind h ih => exact fun hr => .cons hlongest.1 (ih hr)

theorem isLexeme_of_mem_signs {v : Text} (h : v ∈ signs) : IsLexeme marker v :=
  isLexeme_iff.mpr (.inl h)

theorem admissible_of_notWordChar {c : Char} {v s : Text} (hv : IsLexeme marker v)
    (hlast : v.getLast? = some c) (hc : Text.isWordChar c = false) : Admissible marker v s := by
  refine ⟨hv, fun a b ha _ hab => ?_⟩
  rw [hlast, Option.some.injEq] at ha
  rw [← ha, hc] at hab
  exact Bool.false_ne_true hab.1

theorem sign_of_cons {c : Char} (hc : c = '&' ∨ c = '|') :
    ∀ v ∈ signs, v.head? = some c → v = [c] ∨ v = [c, c] := by
  rcases hc with rfl | rfl <;> decide

theorem splits_of_cons {c : Char} {s : Text} (hc : c = '&' ∨ c = '|')
    (h : Splits marker (c :: s)) : Splits marker s := by
  have hword : Text.isWordChar c = false := by rcases hc with rfl | rfl <;> decide
  have hsign : [c] ∈ signs := by rcases hc with rfl | rfl <;> decide
  generalize hw : c :: s = w at h
  cases h with
  | nil => cases hw
  | @cons v r hv hr =>
      obtain ⟨a, v, rfl⟩ := List.exists_cons_of_ne_nil (ne_nil_of_isLexeme hv.1)
      injection hw with hca hs
      subst hca
      subst hs
      rcases isLexeme_iff.mp hv.1 with hmem | ⟨m, -, hm⟩ | ⟨b, hb, hvar⟩
      · rcases sign_of_cons hc _ hmem rfl with h | h
        · injection h with _ h
          rw [h]
          exact hr
        · injection h with _ h
          rw [h]
          exact .cons (admissible_of_notWordChar (isLexeme_of_mem_signs hsign) rfl hword) hr
      · injection hm with _ hm
        rw [hm]
        exact .cons (admissible_of_notWordChar (isLexeme_of_mem_signs (by decide)) rfl
          (by decide)) hr
      · injection hvar with hcb _
        rw [hcb, hb] at hword
        contradiction

theorem splits_of_half {c x : Char} {u t s : Text} (hc : c = '&' ∨ c = '|') (hu : u ≠ [])
    (heq : u ++ x :: t = [c, c]) (h : Splits marker (x :: t ++ s)) : Splits marker s := by
  cases u with
  | nil => exact absurd rfl hu
  | cons a u =>
      injection heq with _ heq
      cases u with
      | nil =>
          have heq : x :: t = [c] := heq
          rw [heq] at h
          exact splits_of_cons hc h
      | cons b u => simp at heq

theorem splits_of_longest {v s : Text} (hlast : (v ++ s).OpensLast) (hv : Longest marker v s)
    (h : Splits marker (v ++ s)) : Splits marker s := by
  generalize hw : v ++ s = w at h
  cases h with
  | nil => exact absurd (List.append_eq_nil_iff.mp hw).1 (ne_nil_of_isLexeme hv.1.1)
  | @cons u r hu hr =>
      have hne := ne_nil_of_isLexeme hu.1
      rcases cut_of_longest hlast hv hw hu with ⟨-, rfl⟩ | ⟨x, t, hcut, rfl, h | h | h⟩
      · exact hr
      · exact splits_of_half (.inl rfl) hne (hcut.symm.trans h) hr
      · exact splits_of_half (.inr rfl) hne (hcut.symm.trans h) hr
      · rw [h]
        exact .nil

theorem splits_of_rest {w r : Text} {ts : List Token} (h : Munches marker w ts r)
    (hlast : w.OpensLast) : Splits marker w → Splits marker r := by
  induction h with
  | stop r => exact id
  | step hlongest hkind h ih =>
      exact fun hw => ih hlast.suffix (splits_of_longest hlast hlongest hw)

theorem exists_lexWord_iff {w : Text} (hlast : w.OpensLast) :
    (∃ ts, lexWord marker w = .ok ts) ↔ Splits marker w := by
  constructor
  · rintro ⟨ts, hts⟩
    exact splits_of_munches ((lexWord_eq_ok_iff hlast).mp hts) .nil
  · intro h
    rcases munches_of_lexWord w hlast with ⟨ts, hts, -⟩ | ⟨ts, r, -, hm, hstuck⟩
    · exact ⟨ts, hts⟩
    · cases splits_of_rest hm hlast h with
      | nil => exact absurd rfl hstuck.1
      | cons hv hs => exact absurd hv (hstuck.2 _ _ rfl)

/-! ## All words

Nothing but the words' own tokens is left to say: the first word that gets stuck decides, and the
words before it have been read to their ends. -/

theorem lexWords_cons_eq_ok_iff {w : Text} {ws : List Text} {ts : List Token} :
    lexWords marker (w :: ws) = .ok ts ↔
      ∃ us vs, lexWord marker w = .ok us ∧ lexWords marker ws = .ok vs ∧ ts = us ++ vs := by
  rw [lexWords]
  cases lexWord marker w with
  | error e => simp
  | ok us => cases lexWords marker ws <;> simp [eq_comm]

theorem lexWords_cons_eq_error_iff {w : Text} {ws : List Text} {e : CompileError} :
    lexWords marker (w :: ws) = .error e ↔
      lexWord marker w = .error e ∨
        ∃ us, lexWord marker w = .ok us ∧ lexWords marker ws = .error e := by
  rw [lexWords]
  cases lexWord marker w with
  | error e => simp
  | ok us => cases lexWords marker ws <;> simp

theorem lexWords_eq_ok_iff {ws : List Text} (hlast : ∀ w ∈ ws, w.OpensLast) {ts : List Token} :
    lexWords marker ws = .ok ts ↔
      ∃ tss, List.Forall₂ (Munches marker · · []) ws tss ∧ ts = tss.flatten := by
  induction ws generalizing ts with
  | nil =>
      constructor
      · intro h
        cases h
        exact ⟨[], .nil, rfl⟩
      · rintro ⟨tss, hws, rfl⟩
        cases hws
        rfl
  | cons w ws ih =>
      obtain ⟨hw, hws⟩ := List.forall_mem_cons.mp hlast
      rw [lexWords_cons_eq_ok_iff]
      constructor
      · rintro ⟨us, vs, hus, hvs, rfl⟩
        obtain ⟨tss, htss, rfl⟩ := (ih hws).mp hvs
        exact ⟨us :: tss, .cons ((lexWord_eq_ok_iff hw).mp hus) htss, rfl⟩
      · rintro ⟨tss, htss, rfl⟩
        cases htss with
        | cons hfirst hrest =>
            exact ⟨_, _, (lexWord_eq_ok_iff hw).mpr hfirst, (ih hws).mpr ⟨_, hrest, rfl⟩, rfl⟩

theorem lexWords_eq_error_iff {ws : List Text} (hlast : ∀ w ∈ ws, w.OpensLast)
    {e : CompileError} :
    lexWords marker ws = .error e ↔
      ∃ before w after r, ws = before ++ w :: after ∧
        (∀ u ∈ before, ∃ ts, Munches marker u ts []) ∧
        (∃ ts, Munches marker w ts r) ∧ Stuck marker r ∧ e = .unknownToken r := by
  induction ws with
  | nil =>
      constructor
      · exact fun h => nomatch h
      · rintro ⟨before, w, after, r, hws, -⟩
        simp at hws
  | cons w ws ih =>
      obtain ⟨hw, hws⟩ := List.forall_mem_cons.mp hlast
      rw [lexWords_cons_eq_error_iff]
      constructor
      · rintro (h | ⟨us, hus, h⟩)
        · obtain ⟨ts, r, hm, hstuck, he⟩ := (lexWord_eq_error_iff hw).mp h
          exact ⟨[], w, ws, r, rfl, List.forall_mem_nil _, ⟨ts, hm⟩, hstuck, he⟩
        · obtain ⟨before, x, after, r, rfl, hbefore, hx, hstuck, he⟩ := (ih hws).mp h
          refine ⟨w :: before, x, after, r, rfl, ?_, hx, hstuck, he⟩
          exact List.forall_mem_cons.mpr ⟨⟨us, (lexWord_eq_ok_iff hw).mp hus⟩, hbefore⟩
      · rintro ⟨before, x, after, r, heq, hbefore, ⟨ts, hx⟩, hstuck, he⟩
        cases before with
        | nil =>
            injection heq with hwx _
            subst hwx
            exact .inl ((lexWord_eq_error_iff hw).mpr ⟨ts, r, hx, hstuck, he⟩)
        | cons u before =>
            injection heq with hwu hws'
            subst hwu
            obtain ⟨⟨us, hu⟩, hbefore⟩ := List.forall_mem_cons.mp hbefore
            exact .inr ⟨us, (lexWord_eq_ok_iff hw).mpr hu,
              (ih hws).mpr ⟨before, x, after, r, hws', hbefore, ⟨ts, hx⟩, hstuck, he⟩⟩

theorem exists_lexWords_iff {ws : List Text} (hlast : ∀ w ∈ ws, w.OpensLast) :
    (∃ ts, lexWords marker ws = .ok ts) ↔ ∀ w ∈ ws, Splits marker w := by
  induction ws with
  | nil => exact ⟨fun _ => List.forall_mem_nil _, fun _ => ⟨[], rfl⟩⟩
  | cons w ws ih =>
      obtain ⟨hw, hws⟩ := List.forall_mem_cons.mp hlast
      rw [List.forall_mem_cons, ← exists_lexWord_iff hw, ← ih hws]
      constructor
      · rintro ⟨ts, h⟩
        obtain ⟨us, vs, hus, hvs, -⟩ := lexWords_cons_eq_ok_iff.mp h
        exact ⟨⟨us, hus⟩, vs, hvs⟩
      · rintro ⟨⟨us, hus⟩, vs, hvs⟩
        exact ⟨us ++ vs, lexWords_cons_eq_ok_iff.mpr ⟨us, vs, hus, hvs, rfl⟩⟩

/-- The lexer takes the longest admissible lexeme off each word, over and over, and gives it the
first kind it is a lexeme of. It fails with the first rest of a word that no admissible lexeme
begins, and only for a text of which some word cannot be cut into admissible lexemes at all. -/
theorem lex_munches (marker : Option Char) (text : Text) :
    (∀ ts, lex marker text = .ok ts ↔
      ∃ tss, List.Forall₂ (Munches marker · · []) (wordsOf text) tss ∧ ts = tss.flatten) ∧
    (∀ e, lex marker text = .error e ↔
      ∃ before w after r, wordsOf text = before ++ w :: after ∧
        (∀ u ∈ before, ∃ ts, Munches marker u ts []) ∧
        (∃ ts, Munches marker w ts r) ∧ Stuck marker r ∧ e = .unknownToken r) ∧
    ((∃ ts, lex marker text = .ok ts) ↔ ∀ w ∈ wordsOf text, Splits marker w) := by
  have hlast : ∀ w ∈ wordsOf text, w.OpensLast := fun w hw => opensLast_of_mem_wordsOf hw
  exact ⟨fun ts => lexWords_eq_ok_iff hlast, fun e => lexWords_eq_error_iff hlast,
    exists_lexWords_iff hlast⟩

end Token

end Sentential
