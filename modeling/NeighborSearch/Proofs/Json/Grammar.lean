import NeighborSearch.Json.Parser
import NeighborSearch.Json.Printer
import NeighborSearch.Proofs.Decimal.Literal

/-! What JSON texts are spelled like.

`Spells` is the grammar of texts, each with the value that it spells; blanks may stand around every
value and every key, to any depth. Whatever the reader takes from the front of a text is spelled
there (`Spells.sound`). -/
namespace NeighborSearch.Json
open Decimal
variable {c : Char} {cs rest : List Char} {s : JsonString} {v : Json}

/-! ### The grammar -/

def IsBlank (c : Char) : Prop := c = ' ' ∨ c = '\t' ∨ c = '\n' ∨ c = '\r'

/-- What stands between the quotes of a string. -/
inductive SpellsParts : List StringPart → List Char → Prop
  | nil : SpellsParts [] []
  | char {c : Char} {parts : List StringPart} {cs : List Char} (hquote : c ≠ '"')
      (hbackslash : c ≠ '\\') (hcontrol : ¬ c < ' ') (h : SpellsParts parts cs) :
      SpellsParts (.char c :: parts) (c :: cs)
  | escape {letter c : Char} {parts : List StringPart} {cs : List Char}
      (hletter : escaped? letter = some c) (h : SpellsParts parts cs) :
      SpellsParts (.char c :: parts) ('\\' :: letter :: cs)
  | unit {a b c d : Char} {code : Nat} {parts : List StringPart} {cs : List Char}
      (hcode : codeUnit? a b c d = some code) (h : SpellsParts parts cs) :
      SpellsParts (.unit code :: parts) ('\\' :: 'u' :: a :: b :: c :: d :: cs)

inductive SpellsString : JsonString → List Char → Prop
  | mk {parts : List StringPart} {cs : List Char} (h : SpellsParts parts cs) :
      SpellsString (textOfParts parts) ('"' :: (cs ++ ['"']))

inductive SpellsMinus : Bool → List Char → Prop
  | none : SpellsMinus false []
  | minus : SpellsMinus true ['-']

inductive SpellsFraction : List Digit → List Char → Prop
  | none : SpellsFraction [] []
  | point {digits : List Digit} (hdigits : digits ≠ []) :
      SpellsFraction digits ('.' :: digits.map Digit.toChar)

inductive SpellsExponent : Option Int → List Char → Prop
  | none : SpellsExponent none []
  | marked {mark : Char} {negative : Bool} {sign : List Char} {digits : List Digit}
      (hmark : mark = 'e' ∨ mark = 'E') (hsign : Literal.SpellsSign negative sign)
      (hdigits : digits ≠ []) :
      SpellsExponent (some (if negative then -(ofDigits digits : Int) else ofDigits digits))
        (mark :: (sign ++ digits.map Digit.toChar))

inductive SpellsNumeral : Numeral → List Char → Prop
  | mk {negative : Bool} {minus point tail : List Char} {whole fraction : List Digit}
      {exponent : Option Int} (hminus : SpellsMinus negative minus)
      (hwhole : isWhole whole = true) (hfraction : SpellsFraction fraction point)
      (hexponent : SpellsExponent exponent tail) :
      SpellsNumeral ⟨negative, whole, fraction, exponent⟩
        (minus ++ (whole.map Digit.toChar ++ (point ++ tail)))

/-- A field of an object and the texts on both sides of its colon. -/
structure Member where
  field : JsonString × Json
  key : List Char
  value : List Char

def Member.text (m : Member) : List Char := m.key ++ ':' :: m.value

/-- A value with blanks around it. -/
inductive Spells : Json → List Char → Prop
  | null : Spells null ['n', 'u', 'l', 'l']
  | true : Spells (bool true) ['t', 'r', 'u', 'e']
  | false : Spells (bool false) ['f', 'a', 'l', 's', 'e']
  | number {n : Numeral} {cs : List Char} (h : SpellsNumeral n cs) : Spells (number n) cs
  | string {s : JsonString} {cs : List Char} (h : SpellsString s cs) : Spells (string s) cs
  | emptyArray {blanks : List Char} (h : ∀ c ∈ blanks, IsBlank c) :
      Spells (array []) ('[' :: (blanks ++ [']']))
  | array {items : List (Json × List Char)} (hne : items ≠ [])
      (h : ∀ item ∈ items, Spells item.1 item.2) :
      Spells (array (items.map Prod.fst)) ('[' :: (separated [','] (items.map Prod.snd) ++ [']']))
  | emptyObject {blanks : List Char} (h : ∀ c ∈ blanks, IsBlank c) :
      Spells (object []) ('\x7b' :: (blanks ++ ['\x7d']))
  | object {members : List Member} (hne : members ≠ [])
      (hkeys : ∀ m ∈ members, Spells (string m.field.1) m.key)
      (h : ∀ m ∈ members, Spells m.field.2 m.value) :
      Spells (object (members.map Member.field))
        ('\x7b' :: (separated [','] (members.map Member.text) ++ ['\x7d']))
  | before {c : Char} {v : Json} {cs : List Char} (hc : IsBlank c) (h : Spells v cs) :
      Spells v (c :: cs)
  | after {c : Char} {v : Json} {cs : List Char} (h : Spells v cs) (hc : IsBlank c) :
      Spells v (cs ++ [c])

/-! ### Blanks -/

theorem skipBlanks_blank (h : IsBlank c) (cs : List Char) :
    skipBlanks (c :: cs) = skipBlanks cs := by
  rw [skipBlanks, List.dropWhile_cons_of_pos, skipBlanks]
  simpa [IsBlank, or_assoc] using h

theorem skipBlanks_of_not_blank (h : ¬ IsBlank c) (cs : List Char) :
    skipBlanks (c :: cs) = c :: cs := by
  rw [skipBlanks, List.dropWhile_cons_of_neg]
  simpa [IsBlank, or_assoc] using h

theorem skipBlanks_blanks {blanks : List Char} (h : ∀ c ∈ blanks, IsBlank c) (cs : List Char) :
    skipBlanks (blanks ++ cs) = skipBlanks cs := by
  induction blanks with
  | nil => rfl
  | cons c blanks ih =>
    rw [List.forall_mem_cons] at h
    rw [List.cons_append, skipBlanks_blank h.1, ih h.2]

theorem skipBlanks_idem (cs : List Char) : skipBlanks (skipBlanks cs) = skipBlanks cs :=
  List.dropWhile_idempotent _ cs

theorem skipBlanks_append (h : skipBlanks cs = c :: rest) (behind : List Char) :
    skipBlanks (cs ++ behind) = c :: (rest ++ behind) := by
  rw [skipBlanks] at h ⊢
  rw [List.dropWhile_append, h]
  rfl

theorem exists_blanks (cs : List Char) :
    ∃ blanks, (∀ c ∈ blanks, IsBlank c) ∧ cs = blanks ++ skipBlanks cs := by
  refine ⟨_, fun c hc => ?_, List.takeWhile_append_dropWhile.symm⟩
  simpa [IsBlank, or_assoc] using List.mem_takeWhile_imp hc

/-! ### What is read is spelled -/

theorem exists_spellsParts {parts : List StringPart} (h : readParts? cs = some (parts, rest)) :
    ∃ body, SpellsParts parts body ∧ cs = body ++ '"' :: rest := by
  fun_induction readParts? cs generalizing parts with
  | case1 => cases h
  | case2 cs =>
    cases h
    exact ⟨[], .nil, rfl⟩
  | case3 a b c d cs ih =>
    simp only [Option.bind_eq_bind, Option.bind_eq_some_iff, Prod.exists] at h
    obtain ⟨code, hcode, parts, rest, hparts, ⟨⟩⟩ := h
    obtain ⟨body, hbody, rfl⟩ := ih hparts
    exact ⟨_, .unit hcode hbody, rfl⟩
  | case4 letter cs hu ih =>
    simp only [Option.bind_eq_bind, Option.bind_eq_some_iff, Prod.exists] at h
    obtain ⟨c, hletter, parts, rest, hparts, ⟨⟩⟩ := h
    obtain ⟨body, hbody, rfl⟩ := ih hparts
    exact ⟨_, .escape hletter hbody, rfl⟩
  | case5 => cases h
  | case6 c cs hquote hu hletter hcontrol ih =>
    simp only [Option.bind_eq_bind, Option.bind_eq_some_iff, Prod.exists] at h
    obtain ⟨parts, rest, hparts, ⟨⟩⟩ := h
    obtain ⟨body, hbody, rfl⟩ := ih hparts
    simp only [Bool.or_eq_true, decide_eq_true_eq, not_or] at hcontrol
    exact ⟨_, .char hquote hcontrol.2 hcontrol.1 hbody, rfl⟩

theorem exists_spellsString (h : readString? cs = some (s, rest)) :
    ∃ text, SpellsString s text ∧ '"' :: cs = text ++ rest := by
  simp only [readString?, Option.bind_eq_bind, Option.bind_eq_some_iff, Prod.exists] at h
  obtain ⟨parts, rest, hparts, ⟨⟩⟩ := h
  obtain ⟨body, hbody, rfl⟩ := exists_spellsParts hparts
  exact ⟨_, .mk hbody, by simp⟩

theorem exists_spellsMinus {negative : Bool} (h : readMinus cs = (negative, rest)) :
    ∃ minus, SpellsMinus negative minus ∧ cs = minus ++ rest := by
  rw [readMinus.eq_def] at h
  split at h <;> cases h
  · exact ⟨_, .minus, rfl⟩
  · exact ⟨_, .none, rfl⟩

theorem exists_spellsFraction {fraction : List Digit}
    (h : readFraction? cs = some (fraction, rest)) :
    ∃ point, SpellsFraction fraction point ∧ cs = point ++ rest := by
  rw [readFraction?.eq_def] at h
  split at h
  · split at h
    · cases h
    · next hne hspan =>
      cases h
      exact ⟨_, .point hne, congrArg ('.' :: ·) (eq_of_spanDigits hspan)⟩
  · cases h
    exact ⟨[], .none, rfl⟩

theorem exists_spellsExponent {e : Option Int} (h : readExponent? cs = some (e, rest)) :
    ∃ tail, SpellsExponent e tail ∧ cs = tail ++ rest := by
  cases cs with
  | nil =>
    cases h
    exact ⟨[], .none, rfl⟩
  | cons mark cs =>
    rw [readExponent?] at h
    split at h
    · next hmark =>
      cases hread : Literal.readSign cs with | mk negative body
      cases hspan : spanDigits body with | mk digits behind
      simp only [hread, hspan] at h
      obtain ⟨sign, hsign, rfl⟩ := Literal.exists_spellsSign hread
      cases digits with
      | nil => cases h
      | cons digit digits =>
        cases h
        refine ⟨_, .marked hmark hsign (List.cons_ne_nil digit digits), ?_⟩
        rw [eq_of_spanDigits hspan, List.cons_append, List.append_assoc]
    · cases h
      exact ⟨[], .none, rfl⟩

theorem exists_spellsNumeral {n : Numeral} (h : readNumeral? cs = some (n, rest)) :
    ∃ text, SpellsNumeral n text ∧ cs = text ++ rest := by
  cases hread : readMinus cs with | mk negative body
  cases hspan : spanDigits body with | mk whole behind
  simp only [readNumeral?, hread, hspan] at h
  split at h
  · next hwhole =>
    simp only [Option.bind_eq_bind, Option.bind_eq_some_iff, Prod.exists] at h
    obtain ⟨fraction, cs, hfraction, exponent, rest, hexponent, ⟨⟩⟩ := h
    obtain ⟨minus, hminus, rfl⟩ := exists_spellsMinus hread
    obtain ⟨point, hpoint, rfl⟩ := exists_spellsFraction hfraction
    obtain ⟨tail, htail, rfl⟩ := exists_spellsExponent hexponent
    refine ⟨_, .mk hminus hwhole hpoint htail, ?_⟩
    simp [eq_of_spanDigits hspan]
  · cases h

theorem Spells.blanks_append {blanks : List Char} (hblanks : ∀ c ∈ blanks, IsBlank c)
    (h : Spells v cs) : Spells v (blanks ++ cs) := by
  induction blanks with
  | nil => exact h
  | cons c blanks ih =>
    rw [List.forall_mem_cons] at hblanks
    exact .before hblanks.1 (ih hblanks.2)

theorem Spells.append_blanks {blanks : List Char} (hblanks : ∀ c ∈ blanks, IsBlank c)
    (h : Spells v cs) : Spells v (cs ++ blanks) := by
  induction blanks generalizing cs with
  | nil => rwa [List.append_nil]
  | cons c blanks ih =>
    rw [List.forall_mem_cons] at hblanks
    simpa using ih hblanks.2 (h.after hblanks.1)

section Items
variable {α β : Type} {close : Char} {read : List Char → Option (α × List Char)} {n : Nat}
  {value : β → α} {text : β → List Char} {P : β → Prop} {xs : List α}

/-- Whatever the reader takes from the front of a text is spelled there. -/
def Sound (read : List Char → Option (α × List Char)) (value : β → α) (text : β → List Char)
    (P : β → Prop) : Prop :=
  ∀ cs x rest, read cs = some (x, rest) → ∃ b, P b ∧ value b = x ∧ cs = text b ++ rest

/-- Blanks around what is spelled may be counted as part of it. -/
def Pads (value : β → α) (text : β → List Char) (P : β → Prop) : Prop :=
  ∀ b, P b → ∀ before after, (∀ c ∈ before, IsBlank c) → (∀ c ∈ after, IsBlank c) →
    ∃ b', P b' ∧ value b' = value b ∧ text b' = before ++ (text b ++ after)

variable (hsound : Sound read value text P) (hpads : Pads value text P)
include hsound hpads

theorem exists_items (h : readItems? close read n cs = some (xs, rest)) :
    ∃ bs, bs ≠ [] ∧ (∀ b ∈ bs, P b) ∧ bs.map value = xs ∧
      cs = separated [','] (bs.map text) ++ close :: rest := by
  induction n generalizing cs xs with
  | zero => cases h
  | succ n ih =>
    simp only [readItems?, Option.bind_eq_bind, Option.bind_eq_some_iff, Prod.exists] at h
    obtain ⟨x, left, hread, h⟩ := h
    obtain ⟨b, hb, rfl, rfl⟩ := hsound _ _ _ hread
    obtain ⟨blanks, hblanks, hleft⟩ := exists_blanks left
    obtain ⟨b, hb', hvalue, htext⟩ := hpads b hb [] blanks nofun hblanks
    split at h
    · next c behind hskip =>
      rw [hskip] at hleft
      subst hleft
      split at h
      · next hcomma =>
        subst hcomma
        simp only [Option.bind_eq_some_iff, Prod.exists] at h
        obtain ⟨ys, rest, hys, ⟨⟩⟩ := h
        obtain ⟨bs, hne, hbs, rfl, rfl⟩ := ih hys
        refine ⟨b :: bs, List.cons_ne_nil b bs, List.forall_mem_cons.2 ⟨hb', hbs⟩, by simp [hvalue],
          ?_⟩
        rw [List.map_cons, separated, htext]
        · simp
        · simpa using hne
      · split at h
        · next hclose =>
          subst hclose
          cases h
          refine ⟨[b], List.cons_ne_nil b [], List.forall_mem_singleton.2 hb', by simp [hvalue], ?_⟩
          simp [separated, htext]
        · cases h
    · cases h

theorem exists_enclosed (h : readEnclosed? close read n cs = some (xs, rest)) :
    (xs = [] ∧ ∃ blanks, (∀ c ∈ blanks, IsBlank c) ∧ cs = blanks ++ close :: rest) ∨
      ∃ bs, bs ≠ [] ∧ (∀ b ∈ bs, P b) ∧ bs.map value = xs ∧
        cs = separated [','] (bs.map text) ++ close :: rest := by
  obtain ⟨blanks, hblanks, hcs⟩ := exists_blanks cs
  rw [readEnclosed?] at h
  split at h
  · next c behind hskip =>
    rw [hskip] at hcs
    split at h
    · next hclose =>
      subst hclose
      cases h
      exact .inl ⟨rfl, blanks, hblanks, hcs⟩
    · obtain ⟨bs, hne, hbs, rfl, htexts⟩ := exists_items hsound hpads h
      obtain ⟨b, bs, rfl⟩ := List.exists_cons_of_ne_nil hne
      rw [List.forall_mem_cons] at hbs
      obtain ⟨b', hb', hvalue, htext⟩ := hpads b hbs.1 blanks [] hblanks nofun
      refine .inr ⟨b' :: bs, List.cons_ne_nil b' bs, List.forall_mem_cons.2 ⟨hb', hbs.2⟩,
        by simp [hvalue], ?_⟩
      rw [hcs, htexts]
      cases bs <;> simp [separated, htext]
  · cases h

end Items

/-- What a field is spelled by. -/
def Member.Spelled (m : Member) : Prop := Spells (string m.field.1) m.key ∧ Spells m.field.2 m.value

theorem Spells.pads : Pads Prod.fst Prod.snd fun item : Json × List Char => Spells item.1 item.2 :=
  fun item h before after hbefore hafter =>
    ⟨(item.1, before ++ (item.2 ++ after)), (h.append_blanks hafter).blanks_append hbefore, rfl,
      rfl⟩

theorem Member.pads : Pads Member.field Member.text Member.Spelled := by
  rintro m ⟨hkey, hvalue⟩ before after hbefore hafter
  refine ⟨⟨m.field, before ++ m.key, m.value ++ after⟩,
    ⟨hkey.blanks_append hbefore, hvalue.append_blanks hafter⟩, rfl, ?_⟩
  simp [Member.text]

theorem Member.sound {read : List Char → Option (Json × List Char)}
    (hread : Sound read Prod.fst Prod.snd fun item : Json × List Char => Spells item.1 item.2) :
    Sound (readField? read) Member.field Member.text Member.Spelled := by
  intro cs field rest h
  obtain ⟨blanks, hblanks, hcs⟩ := exists_blanks cs
  rw [readField?] at h
  split at h
  · next behind hskip =>
    simp only [Option.bind_eq_bind, Option.bind_eq_some_iff, Prod.exists] at h
    obtain ⟨s, left, hs, h⟩ := h
    obtain ⟨key, hkey, hbehind⟩ := exists_spellsString hs
    obtain ⟨more, hmore, hleft⟩ := exists_blanks left
    split at h
    · next rest hcolon =>
      simp only [Option.bind_eq_some_iff, Prod.exists] at h
      obtain ⟨v, rest, hv, ⟨⟩⟩ := h
      obtain ⟨⟨v, value⟩, hspells, rfl, rfl⟩ := hread _ _ _ hv
      refine ⟨⟨(s, v), blanks ++ (key ++ more), value⟩,
        ⟨((Spells.string hkey).append_blanks hmore).blanks_append hblanks, hspells⟩, rfl, ?_⟩
      rw [hcs, hskip, hbehind, hleft, hcolon]
      simp [Member.text]
    · cases h
  · cases h

/-- **What is read as a value is spelled so.** -/
theorem Spells.sound (n : Nat) : Sound (readValue? n) Prod.fst Prod.snd
    fun item : Json × List Char => Spells item.1 item.2 := by
  induction n with
  | zero => intro cs v rest h; cases h
  | succ n ih =>
    intro cs v rest h
    -- the blanks in front are skipped once, and all cases look at what is behind them
    suffices htext : ∃ text, Spells v text ∧ skipBlanks cs = text ++ rest by
      obtain ⟨text, hspells, hskip⟩ := htext
      obtain ⟨blanks, hblanks, hcs⟩ := exists_blanks cs
      refine ⟨(v, blanks ++ text), hspells.blanks_append hblanks, rfl, ?_⟩
      rw [hcs, hskip, List.append_assoc]
    rw [readValue?] at h
    split at h
    · next hskip =>
      cases h
      exact ⟨_, .null, hskip⟩
    · next hskip =>
      cases h
      exact ⟨_, .true, hskip⟩
    · next hskip =>
      cases h
      exact ⟨_, .false, hskip⟩
    · next hskip =>
      simp only [Option.map_eq_some_iff, Prod.exists] at h
      obtain ⟨s, rest, hs, ⟨⟩⟩ := h
      obtain ⟨text, htext, hcs⟩ := exists_spellsString hs
      exact ⟨text, .string htext, hskip.trans hcs⟩
    · next hskip =>
      simp only [Option.map_eq_some_iff, Prod.exists] at h
      obtain ⟨items, rest, hitems, ⟨⟩⟩ := h
      obtain ⟨rfl, blanks, hblanks, rfl⟩ | ⟨items, hne, hspells, rfl, rfl⟩ :=
        exists_enclosed ih Spells.pads hitems
      · exact ⟨_, .emptyArray hblanks, by simpa using hskip⟩
      · exact ⟨_, .array hne hspells, by simpa using hskip⟩
    · next hskip =>
      simp only [Option.map_eq_some_iff, Prod.exists] at h
      obtain ⟨fields, rest, hfields, ⟨⟩⟩ := h
      obtain ⟨rfl, blanks, hblanks, rfl⟩ | ⟨members, hne, hspells, rfl, rfl⟩ :=
        exists_enclosed (Member.sound ih) Member.pads hfields
      · exact ⟨_, .emptyObject hblanks, by simpa using hskip⟩
      · exact ⟨_, .object hne (fun m hm => (hspells m hm).1) fun m hm => (hspells m hm).2,
          by simpa using hskip⟩
    · simp only [Option.map_eq_some_iff, Prod.exists] at h
      obtain ⟨x, rest, hx, ⟨⟩⟩ := h
      obtain ⟨text, htext, hcs⟩ := exists_spellsNumeral hx
      exact ⟨text, .number htext, hcs⟩

end NeighborSearch.Json
