import Shop.Lib.Json
import Mathlib.Tactic.IntervalCases

/-!
# The text of a JSON value

`JSON.stringify` without indentation, and the round trip through `JSON.parse`.

* `quoteUnits`, `Json.text`   what `JSON.stringify` writes;
* `Json.tokens`               the tokens of this text;
* `Json.Valid`                the numbers are JSON numbers, the strings are UTF-16;
* `lex_text`                  the lexer cuts the text into these tokens;
* `read_tokens`               the parser makes the value of them;
* `parse_stringify`           the round trip.

A half of a surrogate pair that stands alone is written as an escape; a pair is one character.
-/

set_option linter.unusedSectionVars false

namespace Lib

/-! ## strings -/

def lowerHex (d : Nat) : Char :=
  if d < 10 then Char.ofNat ('0'.toNat + d) else Char.ofNat ('a'.toNat + (d - 10))

def unicodeEscape (u : Nat) : List Char :=
  ['\\', 'u', lowerHex (u / 4096 % 16), lowerHex (u / 256 % 16), lowerHex (u / 16 % 16),
    lowerHex (u % 16)]

def isHigh (u : Nat) : Bool := decide (0xD800 ≤ u ∧ u < 0xDC00)

def isLow (u : Nat) : Bool := decide (0xDC00 ≤ u ∧ u < 0xE000)

/-- a code unit that is not part of a surrogate pair -/
def quoteUnit (u : Nat) : List Char :=
  if u = 8 then ['\\', 'b']
  else if u = 9 then ['\\', 't']
  else if u = 10 then ['\\', 'n']
  else if u = 12 then ['\\', 'f']
  else if u = 13 then ['\\', 'r']
  else if u = 0x22 then ['\\', '\x22']
  else if u = 0x5C then ['\\', '\\']
  else if u < 0x20 ∨ isHigh u ∨ isLow u then unicodeEscape u
  else [Char.ofNat u]

def pairOf (hi lo : Nat) : Nat := 0x10000 + (hi - 0xD800) * 0x400 + (lo - 0xDC00)

def quoteUnits : Units → List Char
  | [] => []
  | [u] => quoteUnit u
  | hi :: lo :: us =>
    if isHigh hi ∧ isLow lo then Char.ofNat (pairOf hi lo) :: quoteUnits us
    else quoteUnit hi ++ quoteUnits (lo :: us)

def quote (us : Units) : List Char := '\x22' :: (quoteUnits us ++ ['\x22'])

/-! ## values -/

def comma (first : Bool) : List Char := if first then [] else [',']

mutual
def Json.text : Json → List Char
  | .null => ['n', 'u', 'l', 'l']
  | .bool true => ['t', 'r', 'u', 'e']
  | .bool false => ['f', 'a', 'l', 's', 'e']
  | .number text => text
  | .string us => quote us
  | .array items => '[' :: (Json.itemsText true items ++ [']'])
  | .object fields => '\x7b' :: (Json.fieldsText true fields ++ ['\x7d'])

def Json.itemsText (first : Bool) : List Json → List Char
  | [] => []
  | v :: vs => comma first ++ (v.text ++ Json.itemsText false vs)

def Json.fieldsText (first : Bool) : List (Units × Json) → List Char
  | [] => []
  | (k, v) :: fs => comma first ++ (quote k ++ ':' :: (v.text ++ Json.fieldsText false fs))
end

def JSON.stringify (v : Json) : String := String.ofList v.text

mutual
/-- a value that can be written: its numbers are JSON numbers, its strings are code units -/
def Json.Valid : Json → Prop
  | .number text => isNumber text = true
  | .string us => ∀ u ∈ us, u < 0x10000
  | .array items => Json.ValidItems items
  | .object fields => Json.ValidFields fields
  | _ => True

def Json.ValidItems : List Json → Prop
  | [] => True
  | v :: vs => v.Valid ∧ Json.ValidItems vs

def Json.ValidFields : List (Units × Json) → Prop
  | [] => True
  | (k, v) :: fs => (∀ u ∈ k, u < 0x10000) ∧ v.Valid ∧ Json.ValidFields fs
end

def commaToken (first : Bool) : List Token := if first then [] else [.comma]

mutual
def Json.tokens : Json → List Token
  | .null => [.null]
  | .bool b => [.bool b]
  | .number text => [.number text]
  | .string us => [.string us]
  | .array items => .lbrack :: (Json.itemsTokens true items ++ [.rbrack])
  | .object fields => .lbrace :: (Json.fieldsTokens true fields ++ [.rbrace])

def Json.itemsTokens (first : Bool) : List Json → List Token
  | [] => []
  | v :: vs => commaToken first ++ (v.tokens ++ Json.itemsTokens false vs)

def Json.fieldsTokens (first : Bool) : List (Units × Json) → List Token
  | [] => []
  | (k, v) :: fs =>
    commaToken first ++ (.string k :: .colon :: (v.tokens ++ Json.fieldsTokens false fs))
end

/-! ## the lexer, one character at a time -/

theorem lex_cons (m : Lexing) (c : Char) (cs : List Char) :
    lex m (c :: cs) = (m.next c).bind fun r => (lex r.2 cs).map (r.1 ++ ·) := by
  show (m.next c).bind _ = _
  refine congrArg (Option.bind (m.next c)) (funext fun r => ?_)
  show (lex r.2 cs).bind _ = _
  cases lex r.2 cs <;> rfl

theorem lex_silent {m n : Lexing} {c : Char} (h : m.next c = some ([], n)) (cs : List Char) :
    lex m (c :: cs) = lex n cs := by
  rw [lex_cons, h]
  show (lex n cs).map ([] ++ ·) = _
  cases lex n cs <;> rfl

theorem lex_emit {m n : Lexing} {c : Char} {t : Token} (h : m.next c = some ([t], n))
    (cs : List Char) : lex m (c :: cs) = (lex n cs).map (t :: ·) := by
  rw [lex_cons, h]
  rfl

/-- a token that the next character has ended -/
theorem lex_ended {m : Lexing} {c : Char} {t : Token}
    (h : m.next c = (startToken c).map fun r => (t :: r.1, r.2)) (cs : List Char) :
    lex m (c :: cs) = (lex .blank (c :: cs)).map (t :: ·) := by
  rw [lex_cons, lex_cons, h]
  show _ = ((startToken c).bind fun r => (lex r.2 cs).map (r.1 ++ ·)).map (t :: ·)
  cases startToken c with
  | none => rfl
  | some r =>
    show (lex r.2 cs).map ((t :: r.1) ++ ·) = ((lex r.2 cs).map (r.1 ++ ·)).map (t :: ·)
    rw [Option.map_map]
    rfl

/-! ## strings -/

theorem hexValue_lowerHex {d : Nat} (h : d < 16) : hexValue (lowerHex d) = some d := by
  have hall : ∀ d < 16, hexValue (lowerHex d) = some d := by decide
  exact hall d h

theorem lex_hex (acc : Units) {u : Nat} (hu : u < 0x10000) (cs : List Char) :
    lex (.string acc) (unicodeEscape u ++ cs) = lex (.string (u :: acc)) cs := by
  have h : ∀ (digits value d : Nat), d < 16 → digits ≠ 3 →
      (Lexing.hex acc digits value).next (lowerHex d) =
        some ([], .hex acc (digits + 1) (16 * value + d)) := by
    intro digits value d hd hne
    simp only [Lexing.next, hexValue_lowerHex hd]
    exact if_neg hne
  have hlast : ∀ (value d : Nat), d < 16 → (Lexing.hex acc 3 value).next (lowerHex d) =
      some ([], .string ((16 * value + d) :: acc)) := by
    intro value d hd
    simp only [Lexing.next, hexValue_lowerHex hd]
    rfl
  have hmod : ∀ n : Nat, n % 16 < 16 := fun n => Nat.mod_lt n (by omega)
  unfold unicodeEscape
  show lex (.string acc) ('\\' :: 'u' :: _ :: _ :: _ :: _ :: cs) = _
  rw [lex_silent rfl, lex_silent rfl, lex_silent (h 0 0 _ (hmod _) (by omega)),
    lex_silent (h 1 _ _ (hmod _) (by omega)), lex_silent (h 2 _ _ (hmod _) (by omega)),
    lex_silent (hlast _ _ (hmod _))]
  congr 3
  omega

theorem toNat_ofNat {n : Nat} (h : n < 0xD800 ∨ (0xDFFF < n ∧ n < 0x110000)) :
    (Char.ofNat n).toNat = n := by
  have hv : n.isValidChar := h
  unfold Char.ofNat
  rw [dif_pos hv]
  rfl

/-- a character that stands for itself -/
theorem lex_plain (acc : Units) {n : Nat} (h : n < 0xD800 ∨ (0xDFFF < n ∧ n < 0x110000))
    (hn : 0x20 ≤ n ∧ n ≠ 0x22 ∧ n ≠ 0x5C) (cs : List Char) :
    lex (.string acc) (Char.ofNat n :: cs) =
      lex (.string ((unitsOf (Char.ofNat n)).reverse ++ acc)) cs := by
  have hc : (Char.ofNat n).toNat = n := toNat_ofNat h
  have hne : ∀ c : Char, c.toNat ≠ n → Char.ofNat n ≠ c := fun c hcn he => hcn (he ▸ hc)
  refine lex_silent ?_ cs
  simp only [Lexing.next]
  rw [if_neg (hne '\x22' (fun e => hn.2.1 e.symm)), if_neg (hne '\\' (fun e => hn.2.2 e.symm)),
    if_neg (by rw [hc]; omega)]

theorem lex_quoteUnit (acc : Units) {u : Nat} (hu : u < 0x10000) (cs : List Char) :
    lex (.string acc) (quoteUnit u ++ cs) = lex (.string (u :: acc)) cs := by
  have hesc : ∀ {c : Char} {n : Nat}, (Lexing.escape acc).next c = some ([], .string (n :: acc)) →
      lex (.string acc) (['\\', c] ++ cs) = lex (.string (n :: acc)) cs := by
    intro c n h
    rw [List.cons_append, List.cons_append, lex_silent rfl, lex_silent h]
    rfl
  unfold quoteUnit
  split_ifs with h1 h2 h3 h4 h5 h6 h7 h8
  · exact h1 ▸ hesc rfl
  · exact h2 ▸ hesc rfl
  · exact h3 ▸ hesc rfl
  · exact h4 ▸ hesc rfl
  · exact h5 ▸ hesc rfl
  · exact h6 ▸ hesc rfl
  · exact h7 ▸ hesc rfl
  · exact lex_hex acc hu cs
  · simp only [isHigh, isLow, decide_eq_true_eq, not_or, not_and] at h8
    have hv : u < 0xD800 ∨ (0xDFFF < u ∧ u < 0x110000) := by omega
    have hunits : unitsOf (Char.ofNat u) = [u] := by
      unfold unitsOf
      simp only [toNat_ofNat hv]
      exact if_pos hu
    rw [List.singleton_append, lex_plain acc hv ⟨by omega, h6, h7⟩, hunits]
    rfl

/-- a pair is read as its two halves -/
theorem lex_pair (acc : Units) {hi lo : Nat} (h : isHigh hi ∧ isLow lo) (cs : List Char) :
    lex (.string acc) (Char.ofNat (pairOf hi lo) :: cs) = lex (.string (lo :: hi :: acc)) cs := by
  simp only [isHigh, isLow, decide_eq_true_eq] at h
  have hpair : pairOf hi lo = 0x10000 + (hi - 0xD800) * 0x400 + (lo - 0xDC00) := rfl
  have hv : pairOf hi lo < 0xD800 ∨ (0xDFFF < pairOf hi lo ∧ pairOf hi lo < 0x110000) := by omega
  have hunits : unitsOf (Char.ofNat (pairOf hi lo)) = [hi, lo] := by
    unfold unitsOf
    simp only [toNat_ofNat hv]
    have hhi : 0xD800 + (pairOf hi lo - 0x10000) / 0x400 = hi := by omega
    have hlo : 0xDC00 + (pairOf hi lo - 0x10000) % 0x400 = lo := by omega
    rw [if_neg (by omega), hhi, hlo]
  rw [lex_plain acc hv (by omega), hunits]
  rfl

theorem lex_quoteUnits (us : Units) (h : ∀ u ∈ us, u < 0x10000) (acc : Units) (cs : List Char) :
    lex (.string acc) (quoteUnits us ++ cs) = lex (.string (us.reverse ++ acc)) cs := by
  induction us using quoteUnits.induct generalizing acc with
  | case1 => rfl
  | case2 u => exact lex_quoteUnit acc (h u List.mem_cons_self) cs
  | case3 hi lo us hp ih =>
    have htail : ∀ u ∈ us, u < 0x10000 := fun u hu =>
      h u (List.mem_cons_of_mem _ (List.mem_cons_of_mem _ hu))
    rw [quoteUnits, if_pos hp, List.cons_append, lex_pair acc hp, ih htail]
    simp
  | case4 hi lo us hp ih =>
    have htail : ∀ u ∈ lo :: us, u < 0x10000 := fun u hu => h u (List.mem_cons_of_mem _ hu)
    rw [quoteUnits, if_neg hp, List.append_assoc, lex_quoteUnit acc (h hi List.mem_cons_self),
      ih htail]
    simp

theorem lex_quote {us : Units} (h : ∀ u ∈ us, u < 0x10000) (cs : List Char) :
    lex .blank (quote us ++ cs) = (lex .blank cs).map (.string us :: ·) := by
  unfold quote
  rw [List.cons_append, List.append_assoc, lex_silent rfl, lex_quoteUnits us h, List.append_nil]
  have hend : (Lexing.string us.reverse).next '\x22' = some ([.string us], .blank) := by
    simp only [Lexing.next, if_true, List.reverse_reverse]
  exact lex_emit hend cs

/-! ## the code units of a string -/

theorem toNat_valid (c : Char) : c.toNat < 0xD800 ∨ (0xDFFF < c.toNat ∧ c.toNat < 0x110000) := by
  have h := c.valid
  simp only [UInt32.isValidChar, Nat.isValidChar] at h
  exact h

/-- one unit that is no surrogate, or two that are -/
theorem unitsOf_cases (c : Char) :
    (unitsOf c = [c.toNat] ∧ c.toNat < 0x10000) ∨
    (unitsOf c = [0xD800 + (c.toNat - 0x10000) / 0x400, 0xDC00 + (c.toNat - 0x10000) % 0x400] ∧
      0x10000 ≤ c.toNat ∧ c.toNat < 0x110000) := by
  have hv := toNat_valid c
  unfold unitsOf
  by_cases h : c.toNat < 0x10000
  · exact Or.inl ⟨if_pos h, h⟩
  · exact Or.inr ⟨if_neg h, by omega, by omega⟩

theorem unitsOf_lt (c : Char) : ∀ u ∈ unitsOf c, u < 0x10000 := by
  intro u hu
  rcases unitsOf_cases c with ⟨heq, hlt⟩ | ⟨heq, hle, hlt⟩
  · rw [heq] at hu
    rw [List.mem_singleton.mp hu]
    exact hlt
  · rw [heq] at hu
    simp only [List.mem_cons, List.not_mem_nil, or_false] at hu
    omega

theorem units_lt (s : String) : ∀ u ∈ units s, u < 0x10000 := by
  intro u hu
  obtain ⟨c, _, hc⟩ := List.mem_flatMap.mp hu
  exact unitsOf_lt c u hc

/-- no character's units begin those of another -/
theorem unitsOf_append_inj {c d : Char} {xs ys : Units}
    (h : unitsOf c ++ xs = unitsOf d ++ ys) : c = d ∧ xs = ys := by
  have hc := toNat_valid c
  have hd := toNat_valid d
  have hinj : c.toNat = d.toNat → c = d := fun he => by
    rw [← Char.ofNat_toNat c, he, Char.ofNat_toNat]
  rcases unitsOf_cases c with ⟨h1, hlt⟩ | ⟨h1, hle, hlt⟩ <;>
    rcases unitsOf_cases d with ⟨h2, hlt'⟩ | ⟨h2, hle', hlt'⟩ <;>
    rw [h1, h2] at h <;>
    simp only [List.cons_append, List.nil_append, List.cons.injEq] at h
  · exact ⟨hinj h.1, h.2⟩
  · omega
  · omega
  · exact ⟨hinj (by omega), h.2.2⟩

theorem units_inj {s t : String} (h : units s = units t) : s = t := by
  have hlist : ∀ a b : List Char, a.flatMap unitsOf = b.flatMap unitsOf → a = b := by
    intro a
    induction a with
    | nil =>
      intro b hb
      cases b with
      | nil => rfl
      | cons d b =>
        rcases unitsOf_cases d with ⟨h2, _⟩ | ⟨h2, _⟩ <;>
          rw [List.flatMap_cons, h2] at hb <;> cases hb
    | cons c a ih =>
      intro b hb
      cases b with
      | nil =>
        rcases unitsOf_cases c with ⟨h1, _⟩ | ⟨h1, _⟩ <;>
          rw [List.flatMap_cons, h1] at hb <;> cases hb
      | cons d b =>
        rw [List.flatMap_cons, List.flatMap_cons] at hb
        obtain ⟨rfl, hrest⟩ := unitsOf_append_inj hb
        rw [ih b hrest]
  exact String.toList_inj.mp (hlist _ _ h)

/-! ## words and numbers -/

/-- nothing follows, or what follows a value in an array or an object -/
def Stops (cs : List Char) : Prop := ∀ c ∈ cs.head?, c ∈ [',', ']', '\x7d']

theorem Stops.nil : Stops [] := fun _ h => nomatch h

theorem Stops.cons {c : Char} (h : c ∈ [',', ']', '\x7d']) (cs : List Char) : Stops (c :: cs) :=
  fun _ hc => Option.some.inj hc ▸ h

/-- a token without an end of its own is ended by what follows -/
theorem lex_stop {m : Lexing} {t : Token} (hclose : m.close = some [t])
    (hnext : ∀ c ∈ [',', ']', '\x7d'], m.next c = (startToken c).map fun r => (t :: r.1, r.2))
    {cs : List Char} (h : Stops cs) : lex m cs = (lex .blank cs).map (t :: ·) := by
  cases cs with
  | nil => exact hclose
  | cons c cs => exact lex_ended (hnext c (h c rfl)) cs

theorem lex_word {m : Lexing} {text : List Char} {t : Token} (hm : m = .word text)
    (hclose : closeWord text = some t) {cs : List Char} (h : Stops cs) :
    lex m cs = (lex .blank cs).map (t :: ·) := by
  subst hm
  refine lex_stop ?_ (fun c hc => ?_) h
  · show (closeWord text).map _ = _
    rw [hclose]
    rfl
  · have hlow : c.isLower = false := by
      simp only [List.mem_cons, List.not_mem_nil, or_false] at hc
      rcases hc with rfl | rfl | rfl <;> rfl
    simp only [Lexing.next, hlow, hclose]
    cases startToken c <;> rfl

theorem NumberState.next_char {s s' : NumberState} {c : Char} (h : s.next c = some s') :
    isNumberChar c = true := by
  by_contra hno
  unfold isNumberChar at hno
  rw [Bool.not_eq_true, Bool.or_eq_false_iff, decide_eq_false_iff_not] at hno
  obtain ⟨hd, hmem⟩ := hno
  simp only [List.mem_cons, List.not_mem_nil, or_false, not_or] at hmem
  have hzero : c ≠ '0' := by
    rintro rfl
    cases hd
  have hnone : s.next c = none := by cases s <;> simp [NumberState.next, hd, hmem, hzero]
  rw [hnone] at h
  cases h

theorem isNumber_chars {text : List Char} (h : isNumber text = true) :
    ∀ c ∈ text, isNumberChar c = true := by
  have hfold : ∀ (text : List Char) (s s' : NumberState),
      text.foldlM NumberState.next s = some s' → ∀ c ∈ text, isNumberChar c = true := by
    intro text
    induction text with
    | nil => exact fun _ _ _ c hc => absurd hc List.not_mem_nil
    | cons d text ih =>
      intro s s' hs c hc
      rw [List.foldlM_cons] at hs
      obtain ⟨s₁, h₁, hrest⟩ := Option.bind_eq_some_iff.mp hs
      rcases List.mem_cons.mp hc with rfl | hc
      · exact NumberState.next_char h₁
      · exact ih s₁ s' hrest c hc
  unfold isNumber at h
  split at h
  · exact hfold text .start _ ‹_›
  · cases h

theorem digit_eq {c : Char} (h : c.isDigit = true) : ∃ d < 10, c = Char.ofNat (48 + d) := by
  have hrange : 48 ≤ c.toNat ∧ c.toNat ≤ 57 := by
    unfold Char.isDigit at h
    rw [Bool.and_eq_true, decide_eq_true_eq, decide_eq_true_eq] at h
    exact ⟨h.1, h.2⟩
  refine ⟨c.toNat - 48, by omega, ?_⟩
  rw [show 48 + (c.toNat - 48) = c.toNat by omega, Char.ofNat_toNat]

theorem isNumber_head {text : List Char} (h : isNumber text = true) :
    ∃ c rest, text = c :: rest ∧ startToken c = some ([], .number [c]) := by
  cases text with
  | nil => cases h
  | cons c rest =>
    refine ⟨c, rest, rfl, ?_⟩
    unfold isNumber at h
    rw [List.foldlM_cons] at h
    have hstart : c = '-' ∨ c.isDigit = true := by
      cases hd : c.isDigit with
      | true => exact Or.inr rfl
      | false =>
        refine Or.inl ?_
        by_contra hne
        have hzero : c ≠ '0' := by
          rintro rfl
          cases hd
        have hnone : NumberState.start.next c = none := by
          simp only [NumberState.next, hd, if_neg hne, if_neg hzero]
          rfl
        rw [hnone] at h
        cases h
    rcases hstart with rfl | hd
    · rfl
    · obtain ⟨d, hlt, rfl⟩ := digit_eq hd
      interval_cases d <;> rfl

theorem lex_number {text : List Char} (h : isNumber text = true) {cs : List Char} (hcs : Stops cs) :
    lex .blank (text ++ cs) = (lex .blank cs).map (.number text :: ·) := by
  have hbody : ∀ (body acc : List Char), (∀ c ∈ body, isNumberChar c = true) →
      lex (.number acc) (body ++ cs) = lex (.number (body.reverse ++ acc)) cs := by
    intro body
    induction body with
    | nil => exact fun _ _ => rfl
    | cons c body ih =>
      intro acc hall
      have hnext : (Lexing.number acc).next c = some ([], .number (c :: acc)) := by
        simp only [Lexing.next, hall c List.mem_cons_self, if_true]
      rw [List.cons_append, lex_silent hnext, ih _ fun x hx => hall x (List.mem_cons_of_mem _ hx)]
      simp
  obtain ⟨c, rest, rfl, hstart⟩ := isNumber_head h
  have hchars := isNumber_chars h
  have hclose : closeNumber (rest.reverse ++ [c]) = some (.number (c :: rest)) := by
    unfold closeNumber
    rw [List.reverse_append, List.reverse_reverse]
    exact if_pos h
  have hfirst : Lexing.blank.next c = some ([], .number [c]) := hstart
  rw [List.cons_append, lex_silent hfirst,
    hbody rest [c] fun x hx => hchars x (List.mem_cons_of_mem _ hx)]
  refine lex_stop ?_ (fun x hx => ?_) hcs
  · show (closeNumber _).map _ = _
    rw [hclose]
    rfl
  · have hno : isNumberChar x = false := by
      simp only [List.mem_cons, List.not_mem_nil, or_false] at hx
      rcases hx with rfl | rfl | rfl <;> rfl
    simp only [Lexing.next, hno, hclose]
    cases startToken x <;> rfl

/-! ## whole values -/

theorem map_cons (t : Token) (ts : List Token) (o : Option (List Token)) :
    (o.map (ts ++ ·)).map (t :: ·) = o.map (t :: ts ++ ·) := by
  cases o <;> rfl

theorem map_append (ts ts' : List Token) (o : Option (List Token)) :
    (o.map (ts' ++ ·)).map (ts ++ ·) = o.map ((ts ++ ts') ++ ·) := by
  cases o with
  | none => rfl
  | some x => exact congrArg some (List.append_assoc ts ts' x).symm

theorem lex_comma (first : Bool) (cs : List Char) :
    lex .blank (comma first ++ cs) = (lex .blank cs).map (commaToken first ++ ·) := by
  cases first with
  | true =>
    show lex .blank cs = (lex .blank cs).map ([] ++ ·)
    cases lex .blank cs <;> rfl
  | false => exact lex_emit rfl cs

theorem stops_items (vs : List Json) (cs : List Char) :
    Stops (Json.itemsText false vs ++ ([']'] ++ cs)) := by
  cases vs with
  | nil => exact Stops.cons (by simp) cs
  | cons v vs => exact Stops.cons (by simp) _

theorem stops_fields (fs : List (Units × Json)) (cs : List Char) :
    Stops (Json.fieldsText false fs ++ (['\x7d'] ++ cs)) := by
  cases fs with
  | nil => exact Stops.cons (by simp) cs
  | cons f fs => exact Stops.cons (by simp) _

mutual
/-- **The lexer cuts the text of a value into its tokens**, whatever may follow it. -/
theorem lex_text : ∀ (v : Json), v.Valid → ∀ cs, Stops cs →
    lex .blank (v.text ++ cs) = (lex .blank cs).map (v.tokens ++ ·)
  | .null, _, cs, hcs => by
    show lex .blank ('n' :: 'u' :: 'l' :: 'l' :: cs) = _
    rw [lex_silent rfl, lex_silent rfl, lex_silent rfl, lex_silent rfl]
    exact lex_word rfl rfl hcs
  | .bool true, _, cs, hcs => by
    show lex .blank ('t' :: 'r' :: 'u' :: 'e' :: cs) = _
    rw [lex_silent rfl, lex_silent rfl, lex_silent rfl, lex_silent rfl]
    exact lex_word rfl rfl hcs
  | .bool false, _, cs, hcs => by
    show lex .blank ('f' :: 'a' :: 'l' :: 's' :: 'e' :: cs) = _
    rw [lex_silent rfl, lex_silent rfl, lex_silent rfl, lex_silent rfl, lex_silent rfl]
    exact lex_word rfl rfl hcs
  | .number _, h, _, hcs => lex_number h hcs
  | .string _, h, cs, _ => lex_quote h cs
  | .array items, h, cs, _ => by
    show lex .blank ('[' :: ((Json.itemsText true items ++ [']']) ++ cs)) = _
    rw [List.append_assoc, lex_emit (n := .blank) (t := .lbrack) rfl,
      lex_items items true h cs, map_cons]
    rfl
  | .object fields, h, cs, _ => by
    show lex .blank ('\x7b' :: ((Json.fieldsText true fields ++ ['\x7d']) ++ cs)) = _
    rw [List.append_assoc, lex_emit (n := .blank) (t := .lbrace) rfl,
      lex_fields fields true h cs, map_cons]
    rfl

theorem lex_items : ∀ (vs : List Json) (first : Bool), Json.ValidItems vs → ∀ cs,
    lex .blank (Json.itemsText first vs ++ ([']'] ++ cs)) =
      (lex .blank cs).map ((Json.itemsTokens first vs ++ [.rbrack]) ++ ·)
  | [], _, _, cs => lex_emit rfl cs
  | v :: vs, first, h, cs => by
    have hstops := stops_items vs cs
    show lex .blank ((comma first ++ (v.text ++ Json.itemsText false vs)) ++ ([']'] ++ cs)) = _
    rw [List.append_assoc, List.append_assoc, lex_comma, lex_text v h.1 _ hstops,
      lex_items vs false h.2 cs, map_append, map_append]
    simp only [Json.itemsTokens, List.append_assoc]

theorem lex_fields : ∀ (fs : List (Units × Json)) (first : Bool), Json.ValidFields fs → ∀ cs,
    lex .blank (Json.fieldsText first fs ++ (['\x7d'] ++ cs)) =
      (lex .blank cs).map ((Json.fieldsTokens first fs ++ [.rbrace]) ++ ·)
  | [], _, _, cs => lex_emit rfl cs
  | (k, v) :: fs, first, h, cs => by
    have hstops := stops_fields fs cs
    show lex .blank ((comma first ++ (quote k ++ ':' :: (v.text ++ Json.fieldsText false fs))) ++
      (['\x7d'] ++ cs)) = _
    rw [List.append_assoc, List.append_assoc, lex_comma, lex_quote h.1, List.cons_append,
      lex_emit (n := .blank) (t := .colon) rfl, List.append_assoc, lex_text v h.2.1 _ hstops,
      lex_fields fs false h.2.2 cs, map_append, map_cons, map_cons, map_append]
    simp only [Json.fieldsTokens, List.append_assoc, List.cons_append]
end

/-! ## the parser -/

/-- no value begins with the end of an array -/
theorem tokens_opened (v : Json) (stack : List Frame) (ts : List Token) :
    (v.tokens ++ ts).foldlM Parsing.next (.opened stack) =
      (v.tokens ++ ts).foldlM Parsing.next (.value (.array [] :: stack)) := by
  cases v <;> rfl

mutual
/-- **The parser makes the value of the tokens.** -/
theorem read_tokens : ∀ (v : Json) (stack : List Frame) (ts : List Token),
    (v.tokens ++ ts).foldlM Parsing.next (.value stack) = ts.foldlM Parsing.next (.after v stack)
  | .null, _, _ => rfl
  | .bool _, _, _ => rfl
  | .number _, _, _ => rfl
  | .string _, _, _ => rfl
  | .array [], _, _ => rfl
  | .array (v :: vs), stack, ts => by
    show ((v.tokens ++ Json.itemsTokens false vs ++ [Token.rbrack]) ++ ts).foldlM Parsing.next
      (.opened stack) = _
    rw [List.append_assoc, List.append_assoc, tokens_opened, read_tokens v,
      read_items vs [] v stack ts]
    rfl
  | .object [], _, _ => rfl
  | .object ((k, v) :: fs), stack, ts => by
    show ((v.tokens ++ Json.fieldsTokens false fs ++ [Token.rbrace]) ++ ts).foldlM Parsing.next
      (.value (.object [] k :: stack)) = _
    rw [List.append_assoc, List.append_assoc, read_tokens v, read_fields fs [] k v stack ts]
    rfl

theorem read_items : ∀ (vs acc : List Json) (v : Json) (stack : List Frame) (ts : List Token),
    (Json.itemsTokens false vs ++ ([Token.rbrack] ++ ts)).foldlM Parsing.next
        (.after v (.array acc :: stack)) =
      ts.foldlM Parsing.next (.after (.array (acc.reverse ++ v :: vs)) stack)
  | [], acc, v, stack, ts => by
    show ts.foldlM Parsing.next (.after (.array (v :: acc).reverse) stack) = _
    rw [List.reverse_cons]
  | w :: vs, acc, v, stack, ts => by
    show ((w.tokens ++ Json.itemsTokens false vs) ++ ([Token.rbrack] ++ ts)).foldlM Parsing.next
      (.value (.array (v :: acc) :: stack)) = _
    rw [List.append_assoc, read_tokens w, read_items vs (v :: acc) w stack ts, List.reverse_cons,
      List.append_assoc]
    rfl

theorem read_fields : ∀ (fs acc : List (Units × Json)) (k : Units) (v : Json)
    (stack : List Frame) (ts : List Token),
    (Json.fieldsTokens false fs ++ ([Token.rbrace] ++ ts)).foldlM Parsing.next
        (.after v (.object acc k :: stack)) =
      ts.foldlM Parsing.next (.after (.object (acc.reverse ++ (k, v) :: fs)) stack)
  | [], acc, k, v, stack, ts => by
    show ts.foldlM Parsing.next (.after (.object ((k, v) :: acc).reverse) stack) = _
    rw [List.reverse_cons]
  | (l, w) :: fs, acc, k, v, stack, ts => by
    show ((w.tokens ++ Json.fieldsTokens false fs) ++ ([Token.rbrace] ++ ts)).foldlM Parsing.next
      (.value (.object ((k, v) :: acc) l :: stack)) = _
    rw [List.append_assoc, read_tokens w, read_fields fs ((k, v) :: acc) l w stack ts,
      List.reverse_cons, List.append_assoc]
    rfl
end

/-- **The round trip.** -/
theorem parse_stringify {v : Json} (h : v.Valid) : JSON.parse (JSON.stringify v) = some v := by
  have hlex := lex_text v h [] Stops.nil
  have hread := read_tokens v [] []
  rw [List.append_nil] at hlex hread
  unfold JSON.parse JSON.stringify
  rw [String.toList_ofList, hlex]
  show readTokens (v.tokens ++ []) = some v
  unfold readTokens
  rw [List.append_nil, hread]
  rfl

/-! ## numbers that are written in decimals -/

def NumberState.read (s : NumberState) (text : List Char) : Option NumberState :=
  text.foldlM NumberState.next s

theorem NumberState.read_append (s : NumberState) (a b : List Char) :
    s.read (a ++ b) = (s.read a).bind fun s' => s'.read b := List.foldlM_append

/-- where the digits of a number that begins in `s` lead -/
def integerState (n : Nat) : NumberState := if n = 0 then .zero else .int

theorem isDigit_digitChar {d : Nat} (h : d < 10) : d.digitChar.isDigit = true := by
  have hall : ∀ d < 10, (Nat.digitChar d).isDigit = true := by decide
  exact hall d h

theorem read_digit {s : NumberState} (hs : s = .start ∨ s = .minus) {d : Nat} (h : d < 10) :
    s.read [d.digitChar] = some (integerState d) := by
  rcases hs with rfl | rfl <;> interval_cases d <;> rfl

theorem read_toDigits {s : NumberState} (hs : s = .start ∨ s = .minus) (n : Nat) :
    s.read (Nat.toDigits 10 n) = some (integerState n) := by
  induction n using Nat.strongRecOn with
  | ind n ih =>
    by_cases hlt : n < 10
    · rw [Nat.toDigits_of_lt_base hlt]
      exact read_digit hs hlt
    · have hdiv : n / 10 ≠ 0 := by omega
      rw [Nat.toDigits_of_base_le (by omega) (by omega), NumberState.read_append,
        ih (n / 10) (by omega)]
      have hint : integerState (n / 10) = .int := if_neg hdiv
      have hn : integerState n = .int := if_neg (by omega)
      have hd := isDigit_digitChar (Nat.mod_lt n (show 0 < 10 by omega))
      show (integerState (n / 10)).read [(n % 10).digitChar] = _
      rw [hint, hn]
      simp [NumberState.read, NumberState.next, hd]

theorem read_frac {s : NumberState} (hs : s = .point ∨ s = .frac) {text : List Char}
    (hne : text ≠ []) (h : ∀ c ∈ text, c.isDigit = true) : s.read text = some .frac := by
  induction text generalizing s with
  | nil => exact absurd rfl hne
  | cons c text ih =>
    have hc := h c List.mem_cons_self
    have hnext : s.next c = some .frac := by rcases hs with rfl | rfl <;> simp [NumberState.next, hc]
    show (s.next c).bind (NumberState.read · text) = _
    rw [hnext]
    cases text with
    | nil => rfl
    | cons d text => exact ih (Or.inr rfl) (by simp) fun x hx => h x (List.mem_cons_of_mem _ hx)

theorem isNumber_of_read {text : List Char} {s : NumberState}
    (h : NumberState.start.read text = some s)
    (hs : s = .zero ∨ s = .int ∨ s = .frac ∨ s = .expDigits) : isNumber text = true := by
  unfold NumberState.read at h
  unfold isNumber
  rw [h]
  exact decide_eq_true hs

theorem integerState_end (n : Nat) : integerState n = .zero ∨ integerState n = .int := by
  unfold integerState
  split
  · exact Or.inl rfl
  · exact Or.inr rfl

/-- a sign, an integer and decimals, as JavaScript prints a number -/
def decimalText (negative : Bool) (n : Nat) (decimals : List Char) : List Char :=
  (if negative then ['-'] else []) ++ Nat.toDigits 10 n ++ decimals

theorem read_signed (negative : Bool) (n : Nat) :
    NumberState.start.read ((if negative then ['-'] else []) ++ Nat.toDigits 10 n) =
      some (integerState n) := by
  cases negative with
  | false => exact read_toDigits (Or.inl rfl) n
  | true =>
    rw [NumberState.read_append]
    exact read_toDigits (Or.inr rfl) n

theorem isNumber_decimal (negative : Bool) (n : Nat) {decimals : List Char}
    (h : decimals = [] ∨ ∃ digits, decimals = '.' :: digits ∧ digits ≠ [] ∧
      ∀ c ∈ digits, c.isDigit = true) : isNumber (decimalText negative n decimals) = true := by
  have hsigned := read_signed negative n
  unfold decimalText
  rcases h with rfl | ⟨digits, rfl, hne, hdigits⟩
  · rw [List.append_nil]
    exact isNumber_of_read hsigned ((integerState_end n).imp_right Or.inl)
  · refine isNumber_of_read (s := .frac) ?_ (Or.inr (Or.inr (Or.inl rfl)))
    have hpoint : (integerState n).next '.' = some .point := by
      rcases integerState_end n with h | h <;> rw [h] <;> rfl
    rw [NumberState.read_append, hsigned]
    show ((integerState n).next '.').bind (NumberState.read · digits) = _
    rw [hpoint]
    exact read_frac (Or.inl rfl) hne hdigits

end Lib
