import NeighborSearch.Proofs.Json.Grammar

/-! What is spelled is read.

The readers take a text from its front, so each lemma says what a reader makes of a spelled part
with any text behind it that does not go on with that part: a string ends with its quote, and
behind a number stands a blank, a comma or a closing bracket (`Ends`). Blanks behind a part are left
to whoever reads on (`Takes`). So the reader follows the grammar to any depth, and reads nothing
that the grammar does not have (`parse?_eq_some_iff`). -/
namespace NeighborSearch.Json
open Decimal
variable {c : Char} {cs rest : List Char} {s : JsonString} {v : Json}

/-! ### Ends and beginnings -/

/-- Behind a value stands a blank, the text ends, or an item or the value around it does. -/
def Ends (cs : List Char) : Prop :=
  ∀ c rest, cs = c :: rest → IsBlank c ∨ c = ',' ∨ c = ']' ∨ c = '\x7d'

theorem ends_nil : Ends [] := by rintro _ _ ⟨⟩

theorem ends_blank (h : IsBlank c) (cs : List Char) : Ends (c :: cs) := by
  rintro _ _ ⟨⟩
  exact .inl h

theorem ends_cons (h : c = ',' ∨ c = ']' ∨ c = '\x7d') (cs : List Char) : Ends (c :: cs) := by
  rintro _ _ ⟨⟩
  exact .inr h

theorem Ends.eq_nil_or (h : Ends cs) :
    cs = [] ∨ ∃ c ∈ [' ', '\t', '\n', '\r', ',', ']', '\x7d'], ∃ rest, cs = c :: rest := by
  cases cs with
  | nil => exact .inl rfl
  | cons c rest =>
    have hc := h c rest rfl
    exact .inr ⟨c, by simpa [IsBlank, or_assoc] using hc, rest, rfl⟩

theorem noDigit_cons (h : Digit.ofChar? c = none) (cs : List Char) : NoDigit (c :: cs) := by
  rintro _ _ ⟨⟩
  exact h

theorem Ends.noDigit (h : Ends cs) : NoDigit cs := by
  obtain rfl | ⟨c, hc, rest, rfl⟩ := h.eq_nil_or
  · exact Literal.noDigit_nil
  · fin_cases hc <;> exact noDigit_cons rfl _

/-- Behind its blanks a text begins with a character that closes no bracket. -/
def Opens (cs : List Char) : Prop :=
  ∃ c rest, skipBlanks cs = c :: rest ∧ c ≠ ']' ∧ c ≠ '\x7d'

theorem opens_cons (h : ¬ IsBlank c ∧ c ≠ ']' ∧ c ≠ '\x7d') (cs : List Char) : Opens (c :: cs) :=
  ⟨c, cs, skipBlanks_of_not_blank h.1 cs, h.2⟩

theorem Opens.append (h : Opens cs) (behind : List Char) : Opens (cs ++ behind) := by
  obtain ⟨c, rest, hskip, hc⟩ := h
  exact ⟨c, rest ++ behind, skipBlanks_append hskip behind, hc⟩

theorem Opens.before (h : Opens cs) (hc : IsBlank c) : Opens (c :: cs) := by
  rwa [Opens, skipBlanks_blank hc]

theorem Opens.ne_nil (h : Opens cs) : cs ≠ [] := by
  rintro rfl
  obtain ⟨c, rest, hskip, -⟩ := h
  cases hskip

/-- The reader takes `x` from the front of a text, and leaves what stands behind it apart from
blanks. -/
def Takes {α : Type} (read : List Char → Option (α × List Char)) (cs : List Char) (x : α) : Prop :=
  ∀ rest, Ends rest → ∃ left, read (cs ++ rest) = some (x, left) ∧ skipBlanks left = skipBlanks rest

/-! ### Strings -/

theorem SpellsParts.readParts?_append {parts : List StringPart} (h : SpellsParts parts cs)
    (rest : List Char) : readParts? (cs ++ '"' :: rest) = some (parts, rest) := by
  induction h with
  | nil => rfl
  | char hquote hbackslash hcontrol h ih =>
    rw [List.cons_append, readParts?, if_neg (by simp [hbackslash, hcontrol]), ih]
    · rfl
    · exact hquote
    · exact fun _ _ _ _ _ hc _ => hbackslash hc
    · exact fun _ _ hc _ => hbackslash hc
  | @escape letter c parts cs hletter h ih =>
    have hu : letter ≠ 'u' := by
      rintro rfl
      cases hletter
    rw [List.cons_append, List.cons_append, readParts?, hletter]
    · simp only [ih, Option.bind_eq_bind, Option.bind_some]
      rfl
    · exact fun _ _ _ _ _ hc _ => hu hc
  | unit hcode h ih =>
    simp only [List.cons_append, readParts?, hcode, ih, Option.bind_eq_bind, Option.bind_some]
    rfl

theorem SpellsString.readString?_append (h : SpellsString s cs) (rest : List Char) :
    ∃ body, cs ++ rest = '"' :: body ∧ readString? body = some (s, rest) := by
  obtain @⟨parts, cs, hparts⟩ := h
  refine ⟨cs ++ '"' :: rest, by simp, ?_⟩
  rw [readString?, hparts.readParts?_append]
  rfl

/-! ### Numbers -/

section Numbers
variable {e : Option Int} {fraction : List Digit} {point tail : List Char}

theorem SpellsExponent.readExponent?_append (h : SpellsExponent e tail) (hrest : Ends rest) :
    readExponent? (tail ++ rest) = some (e, rest) := by
  cases h with
  | none =>
    obtain rfl | ⟨c, hc, rest, rfl⟩ := hrest.eq_nil_or
    · rfl
    · fin_cases hc <;> rfl
  | @marked mark negative sign digits hmark hsign hdigits =>
    obtain ⟨digit, digits, rfl⟩ := List.exists_cons_of_ne_nil hdigits
    have hbody : Literal.NoSign ((digit :: digits).map Digit.toChar ++ rest) :=
      Literal.noSign_cons (Literal.toChar_noSign digit)
    rw [List.cons_append, List.append_assoc, readExponent?, if_pos hmark,
      hsign.readSign_append hbody]
    simp only [spanDigits_map_toChar _ hrest.noDigit]

theorem SpellsExponent.noDigit_append (h : SpellsExponent e tail) (hrest : Ends rest) :
    NoDigit (tail ++ rest) := by
  cases h with
  | none => exact hrest.noDigit
  | marked hmark hsign hdigits => rcases hmark with rfl | rfl <;> exact noDigit_cons rfl _

theorem SpellsFraction.readFraction?_append (h : SpellsFraction fraction point)
    (htail : SpellsExponent e tail) (hrest : Ends rest) :
    readFraction? (point ++ (tail ++ rest)) = some (fraction, tail ++ rest) := by
  cases h with
  | none =>
    cases htail with
    | none =>
      obtain rfl | ⟨c, hc, rest, rfl⟩ := hrest.eq_nil_or
      · rfl
      · fin_cases hc <;> rfl
    | marked hmark hsign hdigits => rcases hmark with rfl | rfl <;> rfl
  | point hdigits =>
    obtain ⟨digit, digits, rfl⟩ := List.exists_cons_of_ne_nil hdigits
    rw [List.cons_append, readFraction?,
      spanDigits_map_toChar _ (htail.noDigit_append hrest)]

theorem SpellsFraction.noDigit_append (h : SpellsFraction fraction point)
    (htail : SpellsExponent e tail) (hrest : Ends rest) : NoDigit (point ++ (tail ++ rest)) := by
  cases h with
  | none => exact htail.noDigit_append hrest
  | point hdigits => exact noDigit_cons rfl _

theorem SpellsMinus.readMinus_append {negative : Bool} {minus : List Char}
    (h : SpellsMinus negative minus) {whole : List Digit} (hwhole : isWhole whole = true)
    (cs : List Char) : readMinus (minus ++ (whole.map Digit.toChar ++ cs)) =
      (negative, whole.map Digit.toChar ++ cs) := by
  cases h with
  | minus => rfl
  | none =>
    cases whole with
    | nil => cases hwhole
    | cons digit whole =>
      rw [List.nil_append, List.map_cons, List.cons_append, readMinus]
      exact fun _ h => (Literal.toChar_noSign digit).1 (List.cons.inj h).1

theorem SpellsNumeral.readNumeral?_append {n : Numeral} (h : SpellsNumeral n cs)
    (hrest : Ends rest) : readNumeral? (cs ++ rest) = some (n, rest) := by
  obtain ⟨hminus, hwhole, hfraction, hexponent⟩ := h
  rw [List.append_assoc, List.append_assoc, List.append_assoc, readNumeral?,
    hminus.readMinus_append hwhole]
  simp only [spanDigits_map_toChar _ (hfraction.noDigit_append hexponent hrest), if_pos hwhole,
    hfraction.readFraction?_append hexponent hrest, hexponent.readExponent?_append hrest,
    Option.bind_eq_bind, Option.bind_some]
  rfl

theorem SpellsNumeral.eq_cons {n : Numeral} (h : SpellsNumeral n cs) :
    ∃ c rest, cs = c :: rest ∧ (c = '-' ∨ ∃ d : Digit, c = d.toChar) := by
  obtain @⟨_, _, _, _, whole, _, _, hminus, hwhole, _, _⟩ := h
  cases hminus with
  | minus => exact ⟨_, _, rfl, .inl rfl⟩
  | none =>
    cases whole with
    | nil => cases hwhole
    | cons digit whole => exact ⟨_, _, rfl, .inr ⟨digit, rfl⟩⟩

end Numbers

/-! ### Items -/

section Items
variable {α β : Type} {close : Char} {read : List Char → Option (α × List Char)} {limit : Nat}
  {value : β → α} {text : β → List Char}

theorem readItems?_skipBlanks (hskip : ∀ cs, read (skipBlanks cs) = read cs) (cs : List Char) :
    readItems? close read limit (skipBlanks cs) = readItems? close read limit cs := by
  cases limit with
  | zero => rfl
  | succ limit => rw [readItems?, readItems?, hskip]

variable (hclose : close = ']' ∨ close = '\x7d')
include hclose

theorem ends_close (rest : List Char) : Ends (close :: rest) := ends_cons (.inr hclose) rest

theorem skipBlanks_close (rest : List Char) : skipBlanks (close :: rest) = close :: rest := by
  rcases hclose with rfl | rfl <;> rfl

theorem readItems?_separated {x : β} {xs : List β}
    (hlimit : xs.length < limit) (htakes : ∀ y ∈ x :: xs, Takes read (text y) (value y))
    (rest : List Char) :
    readItems? close read limit (separated [','] ((x :: xs).map text) ++ close :: rest) =
      some ((x :: xs).map value, rest) := by
  induction xs generalizing x limit with
  | nil =>
    obtain ⟨limit, rfl⟩ : ∃ l, limit = l + 1 := ⟨limit - 1, by omega⟩
    have hcomma : close ≠ ',' := by rcases hclose with rfl | rfl <;> decide
    obtain ⟨left, hread, hleft⟩ := htakes x List.mem_cons_self _ (ends_close hclose rest)
    rw [List.map_singleton, separated, readItems?, hread]
    simp [hleft, skipBlanks_close hclose, hcomma]
  | cons y xs ih =>
    obtain ⟨limit, rfl⟩ : ∃ l, limit = l + 1 := ⟨limit - 1, by omega⟩
    have hrest := ih (x := y) (show xs.length < limit by simpa using hlimit) fun z hz =>
      htakes z (List.mem_cons_of_mem x hz)
    obtain ⟨left, hread, hleft⟩ := htakes x List.mem_cons_self
      (',' :: (separated [','] ((y :: xs).map text) ++ close :: rest)) (ends_cons (.inl rfl) _)
    have hcomma : ∀ cs, skipBlanks (',' :: cs) = ',' :: cs := fun _ => rfl
    rw [List.map_cons, separated, List.append_assoc, List.append_assoc, List.singleton_append,
      readItems?, hread]
    · simp only [Option.bind_eq_bind, Option.bind_some, hleft, hcomma, if_pos, hrest]
      rfl
    · exact fun h => absurd h (by simp)

theorem readEnclosed?_blanks {blanks : List Char} (h : ∀ c ∈ blanks, IsBlank c)
    (rest : List Char) : readEnclosed? close read limit (blanks ++ close :: rest) =
      some ([], rest) := by
  rw [readEnclosed?, skipBlanks_blanks h, skipBlanks_close hclose]
  exact if_pos rfl

theorem readEnclosed?_separated {xs : List β} (hne : xs ≠ [])
    (hlimit : xs.length ≤ limit) (hskip : ∀ cs, read (skipBlanks cs) = read cs)
    (hopens : ∀ x ∈ xs, Opens (text x)) (htakes : ∀ x ∈ xs, Takes read (text x) (value x))
    (rest : List Char) :
    readEnclosed? close read limit (separated [','] (xs.map text) ++ close :: rest) =
      some (xs.map value, rest) := by
  obtain ⟨x, xs, rfl⟩ := List.exists_cons_of_ne_nil hne
  have hfirst : Opens (separated [','] ((x :: xs).map text) ++ close :: rest) := by
    have hx := hopens x List.mem_cons_self
    cases xs with
    | nil => exact hx.append _
    | cons y xs =>
      rw [List.map_cons, List.map_cons, separated, List.append_assoc, List.append_assoc]
      · exact hx.append _
      · exact List.cons_ne_nil _ _
  obtain ⟨c, cs, hcs, hbracket, hbrace⟩ := hfirst
  have hne : c ≠ close := by
    rintro rfl
    exact hclose.elim hbracket hbrace
  rw [readEnclosed?, hcs]
  refine (if_neg hne).trans ?_
  rw [← hcs, readItems?_skipBlanks hskip, readItems?_separated hclose hlimit htakes]

end Items

theorem length_separated (text : List Char) (texts : List (List Char)) :
    (separated [','] (text :: texts)).length =
      ((text :: texts).map List.length).sum + texts.length := by
  induction texts generalizing text with
  | nil => rfl
  | cons next texts ih =>
    rw [separated, List.length_append, List.length_append, ih next]
    · simp only [List.map_cons, List.sum_cons, List.length_cons, List.length_nil]
      omega
    · exact List.cons_ne_nil next texts

/-- There are not more texts than characters, and none is longer than all of them. -/
theorem length_le_of_separated (texts : List (List Char)) (hne : ∀ text ∈ texts, text ≠ []) :
    texts.length ≤ (separated [','] texts).length ∧
      ∀ text ∈ texts, text.length ≤ (separated [','] texts).length := by
  cases texts with
  | nil => exact ⟨Nat.zero_le _, fun _ h => absurd h List.not_mem_nil⟩
  | cons first texts =>
    have hfirst := List.length_pos_iff.2 (hne first List.mem_cons_self)
    rw [length_separated, List.length_cons]
    refine ⟨?_, fun text h => ?_⟩
    · rw [List.map_cons, List.sum_cons]
      omega
    · exact (List.le_sum_of_mem (List.mem_map_of_mem h)).trans (Nat.le_add_right _ _)

/-! ### Values -/

theorem Spells.opens (h : Spells v cs) : Opens cs := by
  induction h with
  | number h =>
    obtain ⟨c, rest, rfl, rfl | ⟨d, rfl⟩⟩ := h.eq_cons
    · exact opens_cons (by simp [IsBlank]) _
    · fin_cases d <;> exact opens_cons (by simp [IsBlank, Digit.toChar]) _
  | string h =>
    cases h
    exact opens_cons (by simp [IsBlank]) _
  | before hc h ih => exact ih.before hc
  | after h hc ih => exact ih.append _
  | _ => exact opens_cons (by simp [IsBlank]) _

theorem readValue?_skipBlanks (n : Nat) (cs : List Char) :
    readValue? n (skipBlanks cs) = readValue? n cs := by
  cases n with
  | zero => rfl
  | succ n => rw [readValue?, skipBlanks_idem, readValue?]

theorem readField?_skipBlanks (read : List Char → Option (Json × List Char)) (cs : List Char) :
    readField? read (skipBlanks cs) = readField? read cs := by
  rw [readField?, skipBlanks_idem, readField?]

theorem readValue?_numeral (hc : c = '-' ∨ ∃ d : Digit, c = d.toChar) (n : Nat) (cs : List Char) :
    readValue? (n + 1) (c :: cs) =
      (readNumeral? (c :: cs)).map fun (x, cs) => (number x, cs) := by
  rcases hc with rfl | ⟨d, rfl⟩
  · rfl
  · fin_cases d <;> rfl

section Brackets
variable {n : Nat} {body : List Char}

theorem readValue?_array {items : List Json}
    (h : readEnclosed? ']' (readValue? n) n (body ++ ']' :: rest) = some (items, rest)) :
    readValue? (n + 1) ('[' :: (body ++ [']']) ++ rest) = some (array items, rest) := by
  rw [List.cons_append, List.append_assoc, List.singleton_append]
  show (readEnclosed? ']' (readValue? n) n _).map _ = _
  rw [h]
  rfl

theorem readValue?_object {fields : List (JsonString × Json)}
    (h : readEnclosed? '\x7d' (readField? (readValue? n)) n (body ++ '\x7d' :: rest) =
      some (fields, rest)) :
    readValue? (n + 1) ('\x7b' :: (body ++ ['\x7d']) ++ rest) = some (object fields, rest) := by
  rw [List.cons_append, List.append_assoc, List.singleton_append]
  show (readEnclosed? '\x7d' (readField? (readValue? n)) n _).map _ = _
  rw [h]
  rfl

end Brackets

/-- Whatever stands behind a key, the reader finds it there behind blanks. -/
theorem Spells.readString?_append (h : Spells (Json.string s) cs) (rest : List Char) :
    ∃ body left, skipBlanks (cs ++ rest) = '"' :: body ∧ readString? body = some (s, left) ∧
      skipBlanks left = skipBlanks rest := by
  generalize hv : Json.string s = v at h
  induction h generalizing rest with
  | string h =>
    cases hv
    obtain ⟨body, hbody, hread⟩ := h.readString?_append rest
    refine ⟨body, rest, ?_, hread, rfl⟩
    rw [hbody]
    exact skipBlanks_of_not_blank (by simp [IsBlank]) body
  | before hc h ih =>
    rw [List.cons_append, skipBlanks_blank hc]
    exact ih rest hv
  | @after c v cs h hc ih =>
    obtain ⟨body, left, hskip, hread, hleft⟩ := ih (c :: rest) hv
    rw [List.append_assoc]
    exact ⟨body, left, hskip, hread, hleft.trans (skipBlanks_blank hc rest)⟩
  | _ => cases hv

theorem Member.opens {m : Member} (hkey : Spells (string m.field.1) m.key) : Opens m.text :=
  hkey.opens.append _

theorem Member.takes {m : Member} {read : List Char → Option (Json × List Char)}
    (hkey : Spells (string m.field.1) m.key) (hvalue : Takes read m.value m.field.2) :
    Takes (readField? read) m.text m.field := by
  intro rest hrest
  obtain ⟨body, behind, hbody, hstring, hbehind⟩ :=
    hkey.readString?_append (':' :: (m.value ++ rest))
  obtain ⟨left, hread, hleft⟩ := hvalue rest hrest
  have hcolon : skipBlanks behind = ':' :: (m.value ++ rest) := hbehind
  refine ⟨left, ?_, hleft⟩
  rw [Member.text, List.append_assoc, List.cons_append, readField?, hbody]
  simp only [hstring, hcolon, hread, Option.bind_eq_bind, Option.bind_some]
  rfl

/-- **A spelled value is read**, whatever stands behind it. -/
theorem Spells.takes (h : Spells v cs) {n : Nat} (hn : cs.length ≤ n) :
    Takes (readValue? n) cs v := by
  have hpos := List.length_pos_iff.2 h.opens.ne_nil
  obtain ⟨n, rfl⟩ : ∃ m, n = m + 1 := ⟨n - 1, by omega⟩
  clear hpos
  -- what is counted down is at least the length of the part, and each bracket takes one of both
  induction h generalizing n with
  | null | true | false => exact fun rest _ => ⟨rest, rfl, rfl⟩
  | number h =>
    intro rest hrest
    have hread := h.readNumeral?_append hrest
    obtain ⟨c, cs, rfl, hc⟩ := h.eq_cons
    refine ⟨rest, ?_, rfl⟩
    rw [List.cons_append] at hread ⊢
    rw [readValue?_numeral hc, hread]
    rfl
  | string h =>
    intro rest hrest
    obtain ⟨body, hbody, hread⟩ := h.readString?_append rest
    refine ⟨rest, ?_, rfl⟩
    rw [hbody]
    show (readString? body).map _ = _
    rw [hread]
    rfl
  | emptyArray h =>
    exact fun rest _ => ⟨rest, readValue?_array (readEnclosed?_blanks (.inl rfl) h rest), rfl⟩
  | @array items hne h ih =>
    intro rest _
    simp only [List.length_cons, List.length_append, List.length_nil] at hn
    obtain ⟨n, rfl⟩ : ∃ m, n = m + 1 := ⟨n - 1, by omega⟩
    obtain ⟨hcount, hitems⟩ := length_le_of_separated (items.map Prod.snd)
      (List.forall_mem_map.2 fun item hitem => (h item hitem).opens.ne_nil)
    rw [List.length_map] at hcount
    refine ⟨rest, readValue?_array ?_, rfl⟩
    refine readEnclosed?_separated (.inl rfl) hne (by omega) (readValue?_skipBlanks _)
      (fun item hitem => (h item hitem).opens) (fun item hitem => ?_) rest
    have hlength := hitems _ (List.mem_map_of_mem hitem)
    exact ih item hitem n (by omega)
  | emptyObject h =>
    exact fun rest _ => ⟨rest, readValue?_object (readEnclosed?_blanks (.inr rfl) h rest), rfl⟩
  | @object members hne hkeys h _ ih =>
    intro rest _
    simp only [List.length_cons, List.length_append, List.length_nil] at hn
    obtain ⟨n, rfl⟩ : ∃ m, n = m + 1 := ⟨n - 1, by omega⟩
    obtain ⟨hcount, hmembers⟩ := length_le_of_separated (members.map Member.text)
      (List.forall_mem_map.2 fun m hm => (Member.opens (hkeys m hm)).ne_nil)
    rw [List.length_map] at hcount
    refine ⟨rest, readValue?_object ?_, rfl⟩
    refine readEnclosed?_separated (.inr rfl) hne (by omega) (readField?_skipBlanks _)
      (fun m hm => Member.opens (hkeys m hm)) (fun m hm => ?_) rest
    have hlength := hmembers _ (List.mem_map_of_mem hm)
    rw [Member.text, List.length_append, List.length_cons] at hlength
    exact Member.takes (hkeys m hm) (ih m hm n (by omega))
  | before hc h ih =>
    intro rest hrest
    rw [List.length_cons] at hn
    obtain ⟨left, hread, hleft⟩ := ih n (by omega) rest hrest
    refine ⟨left, ?_, hleft⟩
    rw [List.cons_append, ← readValue?_skipBlanks, skipBlanks_blank hc, readValue?_skipBlanks,
      hread]
  | @after c v cs h hc ih =>
    intro rest hrest
    rw [List.length_append] at hn
    obtain ⟨left, hread, hleft⟩ := ih n (by omega) (c :: rest) (ends_blank hc rest)
    rw [List.append_assoc]
    exact ⟨left, hread, hleft.trans (skipBlanks_blank hc rest)⟩

/-- **A text is the value that it spells.** -/
theorem parse?_of_spells (h : Spells v cs) : parse? cs = some v := by
  obtain ⟨left, hread, hleft⟩ := h.takes (Nat.le_succ _) [] ends_nil
  rw [List.append_nil] at hread
  simp only [parse?, hread, hleft]
  rfl

/-- **A text is a value exactly if it spells it.** -/
theorem parse?_eq_some_iff : parse? cs = some v ↔ Spells v cs := by
  refine ⟨fun h => ?_, parse?_of_spells⟩
  rw [parse?] at h
  split at h
  · next rest hread =>
    split at h
    · next hempty =>
      cases h
      obtain ⟨⟨v, text⟩, hspells, rfl, rfl⟩ := Spells.sound _ _ _ _ hread
      obtain ⟨blanks, hblanks, hrest⟩ := exists_blanks rest
      rw [List.isEmpty_iff.1 hempty, List.append_nil] at hrest
      rw [hrest]
      exact hspells.append_blanks hblanks
    · cases h
  · cases h

end NeighborSearch.Json
