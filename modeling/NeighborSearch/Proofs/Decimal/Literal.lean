import NeighborSearch.Decimal.Literal
import NeighborSearch.Proofs.Decimal.Digits

/-! What number literals are spelled like.

`Spells` is the grammar of literals, each of its rules with what it names. Reading a text gives
the literal that the text spells, and no text spells a literal that is not read
(`read?_eq_some_iff`). -/
namespace NeighborSearch.Decimal.Literal
variable {c : Char} {cs sign body point tail rest : List Char} {negative : Bool} {e : Int}
  {whole fraction : List Digit} {d : Decimal} {named : Named} {l : Literal}

/-! ### The grammar -/

inductive SpellsSign : Bool → List Char → Prop
  | none : SpellsSign false []
  | plus : SpellsSign false ['+']
  | minus : SpellsSign true ['-']

/-- The letters of a word, each of them small or capital. -/
def SpellsWord (word : String) : List Char → Prop :=
  List.Forall₂ (fun letter c => c = letter ∨ c = letter.toUpper) word.toList

/-- The digits behind the point; there are none without it. -/
inductive SpellsFraction : List Digit → List Char → Prop
  | none : SpellsFraction [] []
  | point (digits : List Digit) : SpellsFraction digits ('.' :: digits.map Digit.toChar)

inductive SpellsExponent : Int → List Char → Prop
  | none : SpellsExponent 0 []
  | marked {mark : Char} {negative : Bool} {sign : List Char} {digits : List Digit}
      (hmark : mark = 'e' ∨ mark = 'E') (hsign : SpellsSign negative sign)
      (hdigits : digits ≠ []) :
      SpellsExponent (if negative then -(ofDigits digits : Int) else ofDigits digits)
        (mark :: (sign ++ digits.map Digit.toChar))

/-- Digits with a point before, among or behind them, or without one; then the exponent. -/
inductive SpellsNumeral : Decimal → List Char → Prop
  | mk {whole fraction : List Digit} {point tail : List Char} {e : Int}
      (hfraction : SpellsFraction fraction point) (hdigits : whole ++ fraction ≠ [])
      (hexponent : SpellsExponent e tail) :
      SpellsNumeral ⟨ofDigits (whole ++ fraction), e - fraction.length⟩
        (whole.map Digit.toChar ++ (point ++ tail))

/-- The names of what is no numeral. -/
inductive SpellsName : Named → List Char → Prop
  | inf {cs : List Char} (h : SpellsWord "inf" cs) : SpellsName .infinity cs
  | infinity {cs : List Char} (h : SpellsWord "infinity" cs) : SpellsName .infinity cs
  | nan {cs : List Char} (h : SpellsWord "nan" cs) : SpellsName .nan cs

inductive SpellsNamed : Named → List Char → Prop
  | name {named : Named} {cs : List Char} (h : SpellsName named cs) : SpellsNamed named cs
  | numeral {d : Decimal} {cs : List Char} (h : SpellsNumeral d cs) : SpellsNamed (.numeral d) cs

inductive Spells : Literal → List Char → Prop
  | mk {negative : Bool} {named : Named} {sign body : List Char}
      (hsign : SpellsSign negative sign) (hnamed : SpellsNamed named body) :
      Spells ⟨negative, named⟩ (sign ++ body)

/-! ### Signs -/

/-- Whether a text does not begin with a sign. -/
def NoSign (cs : List Char) : Prop := ∀ c rest, cs = c :: rest → c ≠ '-' ∧ c ≠ '+'

theorem noSign_cons {c : Char} (h : c ≠ '-' ∧ c ≠ '+') : NoSign (c :: cs) := by
  rintro _ _ ⟨⟩
  exact h

theorem toChar_noSign (d : Digit) : d.toChar ≠ '-' ∧ d.toChar ≠ '+' := by
  revert d
  decide

theorem readSign_of_noSign (h : NoSign cs) : readSign cs = (false, cs) := by
  rw [readSign.eq_def]
  split
  · exact absurd rfl (h _ _ rfl).1
  · exact absurd rfl (h _ _ rfl).2
  · rfl

theorem SpellsSign.readSign_append (h : SpellsSign negative sign) (hbody : NoSign body) :
    readSign (sign ++ body) = (negative, body) := by
  cases h with
  | none => exact readSign_of_noSign hbody
  | plus => rfl
  | minus => rfl

theorem exists_spellsSign (h : readSign cs = (negative, body)) :
    ∃ sign, SpellsSign negative sign ∧ cs = sign ++ body := by
  rw [readSign.eq_def] at h
  split at h <;> cases h
  · exact ⟨_, .minus, rfl⟩
  · exact ⟨_, .plus, rfl⟩
  · exact ⟨_, .none, rfl⟩

/-! ### Words -/

theorem toLower_eq_iff {letter c : Char} (h : letter.isLower = true) :
    c.toLower = letter ↔ c = letter ∨ c = letter.toUpper := by
  have hletter : letter.toLower = letter :=
    Char.toLower_eq_of_not_isUpper (Char.not_isUpper_of_isLower h)
  constructor
  · rintro rfl
    by_cases hc : c.isUpper = true
    · rw [Char.toUpper_toLower_eq_toUpper,
        Char.toUpper_eq_of_not_isLower (Char.not_isLower_of_isUpper hc)]
      exact .inr rfl
    · exact .inl (Char.toLower_eq_of_not_isUpper hc).symm
  · rintro (rfl | rfl)
    · exact hletter
    · rw [Char.toLower_toUpper_eq_toLower, hletter]

theorem lowered_eq_iff {word : String} (h : ∀ letter ∈ word.toList, letter.isLower = true) :
    lowered cs = word.toList ↔ SpellsWord word cs := by
  rw [SpellsWord, lowered]
  generalize word.toList = letters at h ⊢
  induction letters generalizing cs with
  | nil => simp
  | cons letter letters ih =>
    rw [List.forall_mem_cons] at h
    cases cs with
    | nil => simp
    | cons c cs =>
      rw [List.map_cons, List.cons.injEq, List.forall₂_cons, toLower_eq_iff h.1, ih h.2]

/-! ### Numerals -/

theorem noDigit_nil : NoDigit [] := nofun

theorem spanDigits_digits (ds : List Digit) : spanDigits (ds.map Digit.toChar) = (ds, []) := by
  have h := spanDigits_map_toChar ds noDigit_nil
  rwa [List.append_nil] at h

theorem readExponent?_eq_some_iff : readExponent? cs = some e ↔ SpellsExponent e cs := by
  constructor
  · intro h
    cases cs with
    | nil =>
      cases h
      exact .none
    | cons mark cs =>
      rw [readExponent?] at h
      split at h
      · next hmark =>
        cases hread : readSign cs with | mk negative body
        cases hspan : spanDigits body with | mk digits rest
        simp only [hread, hspan] at h
        obtain ⟨sign, hsign, rfl⟩ := exists_spellsSign hread
        cases digits with
        | nil => cases h
        | cons digit digits =>
          cases rest with
          | cons c rest => cases h
          | nil =>
            cases h
            rw [eq_of_spanDigits hspan, List.append_nil]
            exact .marked hmark hsign (List.cons_ne_nil _ _)
      · cases h
  · intro h
    cases h with
    | none => rfl
    | @marked mark negative sign digits hmark hsign hdigits =>
      obtain ⟨digit, digits, rfl⟩ := List.exists_cons_of_ne_nil hdigits
      have hbody : NoSign ((digit :: digits).map Digit.toChar) := noSign_cons (toChar_noSign digit)
      simp only [readExponent?, if_pos hmark, hsign.readSign_append hbody, spanDigits_digits]

/-- An exponent begins like neither digits nor a fraction. -/
theorem SpellsExponent.head (h : SpellsExponent e (c :: cs)) : c = 'e' ∨ c = 'E' := by
  cases h with
  | marked hmark _ _ => exact hmark

theorem SpellsExponent.noDigit (h : SpellsExponent e tail) : NoDigit tail := by
  rintro c rest rfl
  rcases h.head with rfl | rfl <;> rfl

theorem SpellsFraction.readFraction_append (h : SpellsFraction fraction point)
    (htail : SpellsExponent e tail) : readFraction (point ++ tail) = (fraction, tail) := by
  cases h with
  | point => exact spanDigits_map_toChar _ htail.noDigit
  | none =>
    cases tail with
    | nil => rfl
    | cons c cs => rcases htail.head with rfl | rfl <;> rfl

theorem exists_spellsFraction (h : readFraction cs = (fraction, rest)) :
    ∃ point, SpellsFraction fraction point ∧ cs = point ++ rest := by
  rw [readFraction.eq_def] at h
  split at h
  · exact ⟨_, .point fraction, congrArg ('.' :: ·) (eq_of_spanDigits h)⟩
  · cases h
    exact ⟨[], .none, rfl⟩

theorem SpellsFraction.noDigit (h : SpellsFraction fraction point)
    (htail : SpellsExponent e tail) : NoDigit (point ++ tail) := by
  cases h with
  | none => exact htail.noDigit
  | point =>
    rintro _ _ ⟨⟩
    rfl

theorem readNumeral?_eq_some_iff : readNumeral? cs = some d ↔ SpellsNumeral d cs := by
  constructor
  · intro h
    cases hspan : spanDigits cs with | mk whole behind
    cases hread : readFraction behind with | mk fraction tail
    obtain ⟨point, hfraction, rfl⟩ := exists_spellsFraction hread
    simp only [readNumeral?, hspan, hread] at h
    split at h
    · cases h
    · next hdigits =>
      obtain ⟨e, he, rfl⟩ := Option.map_eq_some_iff.1 h
      rw [eq_of_spanDigits hspan]
      exact .mk hfraction hdigits (readExponent?_eq_some_iff.1 he)
  · rintro ⟨hfraction, hdigits, hexponent⟩
    simp only [readNumeral?, spanDigits_map_toChar _ (hfraction.noDigit hexponent),
      hfraction.readFraction_append hexponent, if_neg hdigits,
      readExponent?_eq_some_iff.2 hexponent, Option.map_some]

/-! ### Literals -/

theorem lowered_eq_inf : lowered cs = "inf".toList ↔ SpellsWord "inf" cs :=
  lowered_eq_iff (by simp)

theorem lowered_eq_infinity : lowered cs = "infinity".toList ↔ SpellsWord "infinity" cs :=
  lowered_eq_iff (by simp)

theorem lowered_eq_nan : lowered cs = "nan".toList ↔ SpellsWord "nan" cs :=
  lowered_eq_iff (by simp)

theorem SpellsName.eq_cons (h : SpellsName named cs) :
    ∃ c rest, cs = c :: rest ∧ c ∈ ['i', 'I', 'n', 'N'] := by
  obtain h | h | h := h <;>
    cases h with
    | cons hc _ => exact ⟨_, _, rfl, by rcases hc with rfl | rfl <;> decide⟩

theorem SpellsName.noSign (h : SpellsName named cs) : NoSign cs := by
  obtain ⟨c, rest, rfl, hc⟩ := h.eq_cons
  fin_cases hc <;> exact noSign_cons (by decide)

/-- No name is a numeral: it begins neither with a digit nor with a point. -/
theorem SpellsName.readNumeral?_eq_none (h : SpellsName named cs) : readNumeral? cs = none := by
  obtain ⟨c, rest, rfl, hc⟩ := h.eq_cons
  fin_cases hc <;> rfl

theorem readNamed?_eq_some_iff : readNamed? cs = some named ↔ SpellsNamed named cs := by
  constructor
  · intro h
    rw [readNamed?] at h
    split at h
    · next hword =>
      cases h
      exact .name (hword.elim (.inf ∘ lowered_eq_inf.1) (.infinity ∘ lowered_eq_infinity.1))
    · split at h
      · next hword =>
        cases h
        exact .name (.nan (lowered_eq_nan.1 hword))
      · obtain ⟨d, hd, rfl⟩ := Option.map_eq_some_iff.1 h
        exact .numeral (readNumeral?_eq_some_iff.1 hd)
  · intro h
    rw [readNamed?]
    cases h with
    | name h =>
      cases h with
      | inf h => rw [if_pos (.inl (lowered_eq_inf.2 h))]
      | infinity h => rw [if_pos (.inr (lowered_eq_infinity.2 h))]
      | nan h =>
        rw [lowered_eq_nan.2 h]
        rfl
    | numeral h =>
      have hread := readNumeral?_eq_some_iff.2 h
      have hname {other : Named} (hother : SpellsName other cs) : False :=
        nomatch hread.symm.trans hother.readNumeral?_eq_none
      have hinfinite : ¬ (lowered cs = "inf".toList ∨ lowered cs = "infinity".toList) := by
        rintro (hword | hword)
        · exact hname (.inf (lowered_eq_inf.1 hword))
        · exact hname (.infinity (lowered_eq_infinity.1 hword))
      have hnan : lowered cs ≠ "nan".toList := fun hword => hname (.nan (lowered_eq_nan.1 hword))
      rw [if_neg hinfinite, if_neg hnan, hread, Option.map_some]

theorem SpellsNumeral.noSign (h : SpellsNumeral d cs) : NoSign cs := by
  obtain @⟨whole, _, _, _, _, hfraction, hdigits, _⟩ := h
  cases whole with
  | cons digit whole => exact noSign_cons (toChar_noSign digit)
  | nil =>
    cases hfraction with
    | none => exact absurd rfl hdigits
    | point => exact noSign_cons (by decide)

theorem SpellsNamed.noSign (h : SpellsNamed named cs) : NoSign cs := by
  cases h with
  | name h => exact h.noSign
  | numeral h => exact h.noSign

theorem read?_eq_some_iff : read? cs = some l ↔ Spells l cs := by
  constructor
  · intro h
    cases hread : readSign cs with | mk negative body
    obtain ⟨sign, hsign, rfl⟩ := exists_spellsSign hread
    simp only [read?, hread] at h
    obtain ⟨named, hnamed, rfl⟩ := Option.map_eq_some_iff.1 h
    exact .mk hsign (readNamed?_eq_some_iff.1 hnamed)
  · rintro ⟨hsign, hnamed⟩
    simp only [read?, hsign.readSign_append hnamed.noSign, readNamed?_eq_some_iff.2 hnamed,
      Option.map_some]

end NeighborSearch.Decimal.Literal
