import Mathlib.Data.List.Basic
import Mathlib.Data.List.TakeDrop
import Mathlib.Data.List.TakeWhile
import TinyScript.Proofs.Shape

/-!
# What the scans accept

For every scan, which splittings of the characters ahead it yields.  Names,
numbers and words are taken as long as possible, so the characters behind one
of them do not continue it.
-/

namespace TinyScript.Lexeme

def Leaves (p : Char → Bool) (s : List Char) : Prop := ∀ d ∈ s.head?, p d = false

theorem continuesWord_eq_false_iff {s : List Char} :
    continuesWord s = false ↔ Leaves isWordChar s := by
  cases s with
  | nil => simp [continuesWord, Leaves]
  | cons c s => simp [continuesWord, Leaves]

/-- A run that cannot be longer is split off as a whole. -/
theorem span_append {p : Char → Bool} {u s : List Char} (all : ∀ d ∈ u, p d = true)
    (ends : Leaves p s) : (u ++ s).span p = (u, s) := by
  rw [List.span_eq_takeWhile_dropWhile, List.takeWhile_append_of_pos all,
    List.dropWhile_append_of_pos all]
  cases s with
  | nil => simp
  | cons d s =>
      have stop : p d = false := ends d (by simp)
      simp [stop]

/-- What is split off is a run that cannot be longer. -/
theorem span_splits (p : Char → Bool) (s : List Char) :
    s = (s.span p).1 ++ (s.span p).2 ∧ (∀ d ∈ (s.span p).1, p d = true) ∧
      Leaves p (s.span p).2 := by
  rw [List.span_eq_takeWhile_dropWhile]
  refine ⟨List.takeWhile_append_dropWhile.symm, fun d mem => List.mem_takeWhile_imp mem, ?_⟩
  intro d mem
  have found := List.head?_dropWhile_not p s
  rw [Option.mem_def.mp mem] at found
  exact found

/-- A text begins with only one run of a class that cannot be longer. -/
theorem run_unique {p : Char → Bool} {u v s t : List Char} (same : u ++ s = v ++ t)
    (allU : ∀ d ∈ u, p d = true) (endsU : Leaves p s)
    (allV : ∀ d ∈ v, p d = true) (endsV : Leaves p t) : u = v ∧ s = t := by
  have split := span_append allU endsU
  rw [same, span_append allV endsV] at split
  exact ⟨(Prod.mk.inj split).1.symm, (Prod.mk.inj split).2.symm⟩

theorem exactly_eq_some_iff {symbol chars u s : List Char} :
    exactly symbol chars = some (u, s) ↔ u = symbol ∧ chars = symbol ++ s := by
  unfold exactly
  rw [Option.map_eq_some_iff]
  constructor
  · rintro ⟨rest, found, same⟩
    rw [List.isPrefixOf?_eq_some_iff_append_eq] at found
    cases same
    exact ⟨rfl, found.symm⟩
  · rintro ⟨rfl, rfl⟩
    exact ⟨s, List.isPrefixOf?_eq_some_iff_append_eq.mpr rfl, rfl⟩

/-- A word is read where it stands and is not continued. -/
theorem word_eq_some_iff {text : String} {chars u s : List Char} :
    word text chars = some (u, s) ↔
      u = text.toList ∧ chars = text.toList ++ s ∧ continuesWord s = false := by
  unfold word
  rw [Option.filter_eq_some_iff, exactly_eq_some_iff]
  simp [and_assoc]

def Wordy (words : List String) : Prop := ∀ w ∈ words, ∀ d ∈ w.toList, isWordChar d = true

/-- One of several words is read where it stands and is not continued. -/
theorem oneOf_eq_some_iff {words : List String} (wordy : Wordy words) {chars u s : List Char} :
    oneOf words chars = some (u, s) ↔
      String.ofList u ∈ words ∧ chars = u ++ s ∧ continuesWord s = false := by
  unfold oneOf
  constructor
  · intro found
    obtain ⟨w, mem, read⟩ := List.exists_of_findSome?_eq_some found
    obtain ⟨rfl, split, ends⟩ := word_eq_some_iff.mp read
    exact ⟨by simpa using mem, split, ends⟩
  · rintro ⟨mem, split, ends⟩
    have read : word (String.ofList u) chars = some (u, s) :=
      word_eq_some_iff.mpr ⟨by simp, by simpa using split, ends⟩
    cases found : words.findSome? (word · chars) with
    | none =>
        rw [List.findSome?_eq_none_iff.mp found _ mem] at read
        cases read
    | some other =>
        -- another word of the list that stands here is the same run of characters
        obtain ⟨v, t⟩ := other
        obtain ⟨w, memW, readW⟩ := List.exists_of_findSome?_eq_some found
        obtain ⟨rfl, splitW, endsW⟩ := word_eq_some_iff.mp readW
        have wordyU := wordy _ mem
        rw [String.toList_ofList] at wordyU
        obtain ⟨rfl, rfl⟩ := run_unique (split.symm.trans splitW) wordyU
          (continuesWord_eq_false_iff.mp ends) (wordy w memW)
          (continuesWord_eq_false_iff.mp endsW)
        rfl

/-- A run of word characters that is none of the words is refused. -/
theorem oneOf_eq_none {words : List String} (wordy : Wordy words) {u s : List Char}
    (all : ∀ d ∈ u, isWordChar d = true) (ends : continuesWord s = false)
    (other : String.ofList u ∉ words) : oneOf words (u ++ s) = none := by
  cases found : oneOf words (u ++ s) with
  | none => rfl
  | some read =>
      obtain ⟨v, t⟩ := read
      obtain ⟨mem, split, endsV⟩ := (oneOf_eq_some_iff wordy).mp found
      have wordyV := wordy _ mem
      rw [String.toList_ofList] at wordyV
      obtain ⟨rfl, _⟩ := run_unique split all (continuesWord_eq_false_iff.mp ends) wordyV
        (continuesWord_eq_false_iff.mp endsV)
      exact absurd mem other

/-- A single word is one of one word. -/
theorem word_eq_oneOf (text : String) : word text = oneOf [text] := by
  funext chars
  simp [oneOf]

theorem wordy_keywords : Wordy keywords := by
  have all : keywords.all (fun w => w.toList.all isWordChar) = true := by decide
  intro w mem
  exact List.all_eq_true.mp (List.all_eq_true.mp all w mem)

/-- Some of the keywords consist of word characters. -/
theorem wordy_of_subset {words : List String} (subset : words ⊆ keywords) : Wordy words :=
  fun w mem => wordy_keywords w (subset mem)

theorem wordy_keyword {word : String} (isKeyword : word ∈ keywords) : Wordy [word] :=
  wordy_of_subset (List.cons_subset.mpr ⟨isKeyword, List.nil_subset _⟩)

theorem wordy_loops : Wordy ["while", "until"] := wordy_of_subset (by simp [keywords])

theorem wordChar_of_isName {name : String} (isName : IsName name) :
    ∀ d ∈ name.toList, isWordChar d = true := by
  obtain ⟨⟨c, more, split, start, others⟩, _⟩ := isName
  rw [split]
  intro d mem
  rcases List.mem_cons.mp mem with rfl | mem
  · simp only [isWordStart, isWordChar, Char.isAlphanum, Bool.or_eq_true] at start ⊢
    rcases start with alpha | underscore
    · exact .inl (.inl alpha)
    · exact .inr underscore
  · exact others d mem

/-- Names are read as a whole, and nothing but names is. -/
theorem identifier_eq_some_iff {chars u s : List Char} :
    identifier chars = some (u, s) ↔
      chars = u ++ s ∧ IsName (String.ofList u) ∧ continuesWord s = false := by
  constructor
  · intro found
    cases chars with
    | nil => cases found
    | cons c rest =>
        rw [identifier] at found
        split at found
        · next accepted =>
            rw [Bool.and_eq_true, Option.isNone_iff_eq_none] at accepted
            obtain ⟨split, all, ends⟩ := span_splits isWordChar rest
            obtain ⟨rfl, rfl⟩ := Prod.mk.inj (Option.some.inj found)
            have whole :
                c :: rest = (c :: (rest.span isWordChar).1) ++ (rest.span isWordChar).2 := by
              rw [List.cons_append, ← split]
            rw [← continuesWord_eq_false_iff] at ends
            refine ⟨whole, ⟨⟨c, _, String.toList_ofList, accepted.1, all⟩, fun mem => ?_⟩, ends⟩
            have read := (oneOf_eq_some_iff wordy_keywords).mpr ⟨mem, whole, ends⟩
            rw [accepted.2] at read
            cases read
        · cases found
  · rintro ⟨rfl, isName, ends⟩
    obtain ⟨⟨c, more, split, start, others⟩, notKeyword⟩ := id isName
    rw [String.toList_ofList] at split
    subst split
    have wordyU := wordChar_of_isName isName
    rw [String.toList_ofList] at wordyU
    have free := oneOf_eq_none wordy_keywords wordyU ends notKeyword
    rw [List.cons_append] at free ⊢
    rw [identifier, if_pos (by rw [free, start]; rfl),
      span_append others (continuesWord_eq_false_iff.mp ends)]

theorem isWordChar_of_isDigit {c : Char} (digit : c.isDigit = true) : isWordChar c = true := by
  simp [isWordChar, Char.isAlphanum, digit]

theorem not_isDigit_of_isWordStart {c : Char} (start : isWordStart c = true) :
    c.isDigit = false := by
  cases digit : c.isDigit with
  | false => rfl
  | true =>
      have table : (List.range' 48 10).all (fun n => !isWordStart (Char.ofNat n)) = true := by
        decide
      obtain ⟨low, high⟩ := Char.isDigit_iff_toNat.mp digit
      have mem : c.toNat ∈ List.range' 48 10 :=
        List.mem_range'_1.mpr ⟨low, Nat.lt_succ_of_le high⟩
      have other := List.all_eq_true.mp table _ mem
      rw [Char.ofNat_toNat, start] at other
      cases other

theorem digits_eq_none {c : Char} (other : c.isDigit = false) (s : List Char) :
    digits (c :: s) = none := by
  have run : ([] ++ c :: s).span Char.isDigit = ([], c :: s) :=
    span_append (by simp) (by simpa [Leaves] using other)
  rw [List.nil_append] at run
  rw [digits, run]

theorem float_eq_none {c : Char} (other : c.isDigit = false) (s : List Char) :
    float (c :: s) = none := by
  rw [float, digits_eq_none other]
  rfl

theorem digits_eq_some_iff {chars u s : List Char} :
    digits chars = some (u, s) ↔ chars = u ++ s ∧ IsDigits u ∧ Leaves Char.isDigit s := by
  unfold digits
  constructor
  · intro found
    obtain ⟨split, all, ends⟩ := span_splits Char.isDigit chars
    cases run : chars.span Char.isDigit with
    | mk ds rest =>
        rw [run] at found split all ends
        cases ds with
        | nil => cases found
        | cons d ds =>
            obtain ⟨rfl, rfl⟩ := Prod.mk.inj (Option.some.inj found)
            exact ⟨split, ⟨List.cons_ne_nil _ _, all⟩, ends⟩
  · rintro ⟨rfl, ⟨nonempty, all⟩, ends⟩
    rw [span_append all ends]
    cases u with
    | nil => exact absurd rfl nonempty
    | cons d u => rfl

/-- A floating-point number is digits, a point and digits. -/
theorem float_eq_some_iff {chars u s : List Char} :
    float chars = some (u, s) ↔
      (∃ whole fraction, IsDigits whole ∧ IsDigits fraction ∧ u = whole ++ '.' :: fraction) ∧
        chars = u ++ s ∧ Leaves Char.isDigit s := by
  unfold float
  constructor
  · intro found
    obtain ⟨⟨whole, afterWhole⟩, readWhole, found⟩ := Option.bind_eq_some_iff.mp found
    obtain ⟨⟨point, afterPoint⟩, readPoint, found⟩ := Option.bind_eq_some_iff.mp found
    obtain ⟨⟨fraction, rest⟩, readFraction, found⟩ := Option.bind_eq_some_iff.mp found
    obtain ⟨splitWhole, isWhole, _⟩ := digits_eq_some_iff.mp readWhole
    obtain ⟨rfl, splitPoint⟩ := exactly_eq_some_iff.mp readPoint
    obtain ⟨splitFraction, isFraction, ends⟩ := digits_eq_some_iff.mp readFraction
    obtain ⟨rfl, rfl⟩ := Prod.mk.inj (Option.some.inj found)
    refine ⟨⟨whole, fraction, isWhole, isFraction, by simp⟩, ?_, ends⟩
    rw [splitWhole, splitPoint, splitFraction]
    simp
  · rintro ⟨⟨whole, fraction, isWhole, isFraction, rfl⟩, rfl, ends⟩
    have readWhole :
        digits (whole ++ '.' :: fraction ++ s) = some (whole, '.' :: (fraction ++ s)) :=
      digits_eq_some_iff.mpr ⟨by simp, isWhole, by simp [Leaves]⟩
    have readPoint : exactly ['.'] ('.' :: (fraction ++ s)) = some (['.'], fraction ++ s) :=
      exactly_eq_some_iff.mpr ⟨rfl, rfl⟩
    have readFraction : digits (fraction ++ s) = some (fraction, s) :=
      digits_eq_some_iff.mpr ⟨rfl, isFraction, ends⟩
    rw [readWhole]
    simp [readPoint, readFraction]

/-- A quoted text runs up to the next occurrence of its quotation mark. -/
theorem quoted_eq_some_iff {quote : Char} {chars u s : List Char} :
    quoted quote chars = some (u, s) ↔
      ∃ body, quote ∉ body ∧ u = quote :: (body ++ [quote]) ∧ chars = u ++ s := by
  unfold quoted
  constructor
  · intro found
    obtain ⟨⟨opening, afterOpening⟩, readOpening, found⟩ := Option.bind_eq_some_iff.mp found
    dsimp only at found
    obtain ⟨splitBody, plain, _⟩ := span_splits (· != quote) afterOpening
    generalize (afterOpening.span (· != quote)) = run at found splitBody plain
    obtain ⟨body, afterBody⟩ := run
    obtain ⟨⟨closing, rest⟩, readClosing, found⟩ := Option.bind_eq_some_iff.mp found
    obtain ⟨rfl, splitOpening⟩ := exactly_eq_some_iff.mp readOpening
    obtain ⟨rfl, splitClosing⟩ := exactly_eq_some_iff.mp readClosing
    obtain ⟨rfl, rfl⟩ := Prod.mk.inj (Option.some.inj found)
    refine ⟨body, fun mem => ?_, by simp, ?_⟩
    · exact absurd (plain quote mem) (by simp)
    · dsimp only at splitBody splitClosing
      rw [splitOpening, splitBody, splitClosing]
      simp
  · rintro ⟨body, plain, rfl, rfl⟩
    have readOpening : exactly [quote] (quote :: (body ++ [quote]) ++ s) =
        some ([quote], body ++ quote :: s) :=
      exactly_eq_some_iff.mpr ⟨rfl, by simp⟩
    have readBody : (body ++ quote :: s).span (· != quote) = (body, quote :: s) := by
      refine span_append (fun d mem => ?_) (by simp [Leaves])
      exact bne_iff_ne.mpr fun same => plain (same ▸ mem)
    have readClosing : exactly [quote] (quote :: s) = some ([quote], s) :=
      exactly_eq_some_iff.mpr ⟨rfl, rfl⟩
    rw [readOpening]
    simp [readBody, readClosing, -List.span_eq_takeWhile_dropWhile]

/-- A text is quoted in one of the two quotation marks. -/
theorem text_eq_some_iff {chars u s : List Char} :
    text chars = some (u, s) ↔
      (∃ quote body, (quote = '"' ∨ quote = '\'') ∧ quote ∉ body ∧
        u = quote :: (body ++ [quote])) ∧ chars = u ++ s := by
  unfold text
  constructor
  · intro found
    cases double : quoted '"' chars with
    | some read =>
        rw [double] at found
        cases found
        obtain ⟨body, plain, whole, split⟩ := quoted_eq_some_iff.mp double
        exact ⟨⟨'"', body, .inl rfl, plain, whole⟩, split⟩
    | none =>
        rw [double] at found
        obtain ⟨body, plain, whole, split⟩ := quoted_eq_some_iff.mp found
        exact ⟨⟨'\'', body, .inr rfl, plain, whole⟩, split⟩
  · rintro ⟨⟨quote, body, rfl | rfl, plain, whole⟩, split⟩
    · rw [quoted_eq_some_iff.mpr ⟨body, plain, whole, split⟩]
      rfl
    · have other : quoted '"' chars = none := by
        cases double : quoted '"' chars with
        | none => rfl
        | some read =>
            obtain ⟨body', _, whole', split'⟩ := quoted_eq_some_iff.mp double
            rw [whole'] at split'
            rw [whole, split'] at split
            simp at split
      rw [other]
      exact quoted_eq_some_iff.mpr ⟨body, plain, whole, split⟩

theorem text_eq_none {c : Char} (notDouble : c ≠ '"') (notSingle : c ≠ '\'') (s : List Char) :
    text (c :: s) = none := by
  cases found : text (c :: s) with
  | none => rfl
  | some read =>
      obtain ⟨⟨quote, body, kind, _, whole⟩, split⟩ := text_eq_some_iff.mp found
      rw [whole, List.cons_append, List.cons.injEq] at split
      rcases kind with rfl | rfl
      · exact absurd split.1 notDouble
      · exact absurd split.1 notSingle

end TinyScript.Lexeme
