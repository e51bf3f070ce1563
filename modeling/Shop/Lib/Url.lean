import Mathlib.Data.List.Basic
import Mathlib.Data.List.DropRight

/-!
# http URLs and routers

How an http client reads the text of a URL, and how the server's router reads the request target
that it is sent: the parser of the URL Standard, for a text that starts with `http://` or
`https://`, and a router of path segments.

* `encode`, `decode`       percent-encoding, and `decodeURIComponent`;
* `URL.parse`              the authority, the path without its dot segments, and the query;
* `URL.target`             what is written into the request line;
* `Route.find`             the first route of a table that matches a request target;
* `decode_encode`          a text comes back, unless a `%` was left in it: then it comes back shorter
  if at all (`decode_encode_lt`);
* `hop_plain`, `mem_hop`   the segments that the router is given, as segments of the text.
-/

set_option linter.unusedSectionVars false

namespace Lib

/-! ## percent-encoding -/

def hexDigit (n : Nat) : Char := if n < 10 then Char.ofNat (48 + n) else Char.ofNat (55 + n)

def digitValue (c : Char) : Option Nat :=
  if 48 ≤ c.toNat ∧ c.toNat ≤ 57 then some (c.toNat - 48)
  else if 65 ≤ c.toNat ∧ c.toNat ≤ 70 then some (c.toNat - 55)
  else if 97 ≤ c.toNat ∧ c.toNat ≤ 102 then some (c.toNat - 87)
  else none

def encodeByte (b : UInt8) : List Char := ['%', hexDigit (b.toNat / 16), hexDigit (b.toNat % 16)]

/-- the C0 control percent-encode set, and the characters that the sets below add to it -/
def encoded (more : List Char) (c : Char) : Bool :=
  decide (c.toNat ≤ 0x1f) || decide (0x7e < c.toNat) || decide (c ∈ more)

/-- of the standard; a parser of an older edition leaves `^` as it is -/
def pathSet : Char → Bool := encoded [' ', '"', '#', '<', '>', '?', '^', '`', '{', '}']

def specialQuerySet : Char → Bool := encoded [' ', '"', '#', '<', '>', '\'']

def encodeChar (set : Char → Bool) (c : Char) : List Char :=
  if set c then (String.utf8EncodeChar c).flatMap encodeByte else [c]

def encode (set : Char → Bool) (s : List Char) : List Char := s.flatMap (encodeChar set)

def utf8 (s : List Char) : List UInt8 := s.flatMap String.utf8EncodeChar

/-- nothing if a `%` is not followed by two hexadecimal digits -/
def decodeBytes : List Char → Option (List UInt8)
  | [] => some []
  | c :: cs =>
    if c = '%' then
      match cs with
      | a :: b :: rest =>
        (digitValue a).bind fun h => (digitValue b).bind fun l =>
          (decodeBytes rest).map (UInt8.ofNat (16 * h + l) :: ·)
      | _ => none
    else (decodeBytes cs).map (String.utf8EncodeChar c ++ ·)

/-- `encodeURIComponent` leaves the unreserved characters as they are -/
def componentSet (c : Char) : Bool :=
  !(c.isAlphanum || decide (c ∈ ['-', '_', '.', '!', '~', '*', '\'', '(', ')']))

/-- `decodeURIComponent` -/
def decode (s : List Char) : Option (List Char) :=
  (decodeBytes s).bind fun bytes => bytes.toByteArray.utf8Decode?.map Array.toList

@[simp] theorem encode_nil (set : Char → Bool) : encode set [] = [] := rfl

@[simp] theorem encode_cons (set : Char → Bool) (c : Char) (s : List Char) :
    encode set (c :: s) = encodeChar set c ++ encode set s := rfl

@[simp] theorem utf8_nil : utf8 [] = [] := rfl

@[simp] theorem utf8_cons (c : Char) (s : List Char) :
    utf8 (c :: s) = String.utf8EncodeChar c ++ utf8 s := rfl

theorem digitValue_hexDigit {n : Nat} (h : n < 16) : digitValue (hexDigit n) = some n := by
  have hall : ∀ k : Fin 16, digitValue (hexDigit k) = some k.val := by decide
  exact hall ⟨n, h⟩

theorem decodeBytes_cons {c : Char} (h : c ≠ '%') (rest : List Char) :
    decodeBytes (c :: rest) = (decodeBytes rest).map (String.utf8EncodeChar c ++ ·) := by
  rw [decodeBytes.eq_def]
  exact if_neg h

theorem decodeBytes_encodeByte (b : UInt8) (rest : List Char) :
    decodeBytes (encodeByte b ++ rest) = (decodeBytes rest).map (b :: ·) := by
  have hb : b.toNat < 256 := b.toNat_lt
  have hhigh : b.toNat / 16 < 16 := by omega
  have hlow : b.toNat % 16 < 16 := Nat.mod_lt _ (by decide)
  have hbyte : UInt8.ofNat (16 * (b.toNat / 16) + b.toNat % 16) = b := by
    rw [Nat.div_add_mod]
    exact UInt8.ofNat_toNat
  simp only [encodeByte, List.cons_append, List.nil_append, decodeBytes, if_pos,
    digitValue_hexDigit hhigh, digitValue_hexDigit hlow, Option.bind_some, hbyte]

theorem decodeBytes_encodeBytes (bytes : List UInt8) (rest : List Char) :
    decodeBytes (bytes.flatMap encodeByte ++ rest) = (decodeBytes rest).map (bytes ++ ·) := by
  induction bytes with
  | nil => simp
  | cons b bytes ih =>
    rw [List.flatMap_cons, List.append_assoc, decodeBytes_encodeByte, ih, Option.map_map]
    rfl

/-- a character is read back, whether it was encoded or not, but a `%` only if it was -/
theorem decodeBytes_encodeChar {set : Char → Bool} {c : Char} (h : c = '%' → set c = true)
    (rest : List Char) : decodeBytes (encodeChar set c ++ rest) =
      (decodeBytes rest).map (String.utf8EncodeChar c ++ ·) := by
  unfold encodeChar
  split
  · exact decodeBytes_encodeBytes _ rest
  · rename_i hset
    exact decodeBytes_cons (fun hc => hset (h hc)) rest

theorem decodeBytes_encode {set : Char → Bool} {s : List Char} (h : '%' ∈ s → set '%' = true) :
    decodeBytes (encode set s) = some (utf8 s) := by
  induction s with
  | nil => rfl
  | cons c s ih =>
    have hc : c = '%' → set c = true := by
      rintro rfl
      exact h List.mem_cons_self
    rw [encode_cons, decodeBytes_encodeChar hc, ih fun hmem => h (List.mem_cons_of_mem _ hmem)]
    rfl

theorem utf8EncodeChar_length_pos (c : Char) : 0 < (String.utf8EncodeChar c).length := by
  rw [String.length_utf8EncodeChar]
  exact c.utf8Size_pos

/-- an encoded character is no digit of an escape -/
theorem encodeChar_escape {set : Char → Bool} {c : Char} (h : set c = true) :
    ∃ t, encodeChar set c = '%' :: t := by
  unfold encodeChar
  rw [if_pos h]
  cases hbytes : String.utf8EncodeChar c with
  | nil =>
    have hpos := utf8EncodeChar_length_pos c
    rw [hbytes] at hpos
    exact absurd hpos (Nat.lt_irrefl 0)
  | cons b bytes => exact ⟨_, rfl⟩

/-- what stands after a `%` that is read is a digit, and was one before the encoding -/
theorem encode_digit {set : Char → Bool} {s t : List Char} {a : Char} {v : Nat}
    (h : encode set s = a :: t) (hv : digitValue a = some v) :
    ∃ s', s = a :: s' ∧ encode set s' = t := by
  cases s with
  | nil => cases h
  | cons c s =>
    rw [encode_cons] at h
    cases hc : set c with
    | true =>
      obtain ⟨t', ht'⟩ := encodeChar_escape hc
      rw [ht', List.cons_append] at h
      rw [← (List.cons.inj h).1] at hv
      cases hv
    | false =>
      have hplain : encodeChar set c = [c] := if_neg (by simp [hc])
      rw [hplain, List.singleton_append] at h
      obtain ⟨rfl, ht⟩ := List.cons.inj h
      exact ⟨s, rfl, ht⟩

/-- each escape that was in the text before the encoding is two bytes less -/
theorem decodeBytes_encode_le {set : Char → Bool} (hset : set '%' = false) (s : List Char)
    {bytes : List UInt8} (h : decodeBytes (encode set s) = some bytes) :
    bytes.length ≤ (utf8 s).length ∧ ('%' ∈ s → bytes.length < (utf8 s).length) := by
  match s with
  | [] =>
    cases h
    exact ⟨Nat.le_refl _, nofun⟩
  | c :: cs =>
    by_cases hc : c = '%'
    · subst hc
      have hplain : encodeChar set '%' = ['%'] := if_neg (by simp [hset])
      rw [encode_cons, hplain, List.singleton_append, decodeBytes.eq_def] at h
      dsimp only at h
      rw [if_pos rfl] at h
      split at h
      · rename_i a b rest henc
        obtain ⟨x, hx, h⟩ := Option.bind_eq_some_iff.mp h
        obtain ⟨y, hy, h⟩ := Option.bind_eq_some_iff.mp h
        obtain ⟨tail, htail, rfl⟩ := Option.map_eq_some_iff.mp h
        obtain ⟨cs', rfl, henc'⟩ := encode_digit henc hx
        obtain ⟨cs'', rfl, rfl⟩ := encode_digit henc' hy
        have ih := (decodeBytes_encode_le hset cs'' htail).1
        have ha := utf8EncodeChar_length_pos a
        have hb := utf8EncodeChar_length_pos b
        have hpercent := utf8EncodeChar_length_pos '%'
        simp only [utf8_cons, List.length_append, List.length_cons]
        exact ⟨by omega, fun _ => by omega⟩
      · cases h
    · rw [encode_cons, decodeBytes_encodeChar fun heq => absurd heq hc] at h
      obtain ⟨tail, htail, rfl⟩ := Option.map_eq_some_iff.mp h
      obtain ⟨hle, hlt⟩ := decodeBytes_encode_le hset cs htail
      simp only [utf8_cons, List.length_append]
      refine ⟨by omega, fun hmem => ?_⟩
      have := hlt ((List.mem_cons.mp hmem).resolve_left (Ne.symm hc))
      omega
termination_by s.length

theorem toByteArray_utf8 (s : List Char) : (utf8 s).toByteArray = s.utf8Encode := rfl

/-- **A text comes back**, if the encoding does not leave a `%` in it. -/
theorem decode_encode {set : Char → Bool} {s : List Char} (h : '%' ∈ s → set '%' = true) :
    decode (encode set s) = some s := by
  unfold decode
  rw [decodeBytes_encode h, Option.bind_some, toByteArray_utf8, List.utf8Decode?_utf8Encode]
  rfl

/-- **A text with a `%` comes back shorter**, if it comes back at all. -/
theorem decode_encode_lt {set : Char → Bool} (hset : set '%' = false) {s t : List Char}
    (h : decode (encode set s) = some t) (hs : '%' ∈ s) : (utf8 t).length < (utf8 s).length := by
  obtain ⟨bytes, hbytes, ht⟩ := Option.bind_eq_some_iff.mp h
  obtain ⟨cs, hcs, rfl⟩ := Option.map_eq_some_iff.mp ht
  have hvalid : bytes.toByteArray.utf8Decode?.isSome = true := by rw [hcs]; rfl
  have hget : bytes.toByteArray.utf8Decode?.get hvalid = cs := Option.get_of_eq_some _ hcs
  have henc := ByteArray.utf8Encode_get_utf8Decode? (b := bytes.toByteArray) (h := hvalid)
  rw [hget, ← toByteArray_utf8] at henc
  have hsize := congrArg ByteArray.size henc
  rw [List.size_toByteArray, List.size_toByteArray] at hsize
  rw [hsize]
  exact (decodeBytes_encode_le hset s hbytes).2 hs

theorem utf8_length_mono {s t : List Char} (h : s.Sublist t) :
    (utf8 s).length ≤ (utf8 t).length := by
  induction h with
  | slnil => exact Nat.le_refl _
  | cons c h ih =>
    rw [utf8_cons, List.length_append]
    omega
  | cons_cons c h ih =>
    rw [utf8_cons, utf8_cons, List.length_append, List.length_append]
    omega

/-! ## the parser -/

def isC0OrSpace (c : Char) : Bool := decide (c.toNat ≤ 0x20)

def isTabOrNewline (c : Char) : Bool := c = '\t' || c = '\n' || c = '\r'

/-- a backslash is a slash, as the scheme is special -/
def isSlash (c : Char) : Bool := c = '/' || c = '\\'

def isSingleDot (s : List Char) : Bool := s.map Char.toLower ∈ [".".toList, "%2e".toList]

def isDoubleDot (s : List Char) : Bool :=
  s.map Char.toLower ∈ ["..".toList, ".%2e".toList, "%2e.".toList, "%2e%2e".toList]

/-- the path state; a dot segment at the end leaves an empty segment -/
def normalize (out : List (List Char)) : List (List Char) → List (List Char)
  | [] => out
  | s :: rest =>
    if isDoubleDot s then normalize (if rest = [] then out.dropLast ++ [[]] else out.dropLast) rest
    else if isSingleDot s then normalize (if rest = [] then out ++ [[]] else out) rest
    else normalize (out ++ [encode pathSet s]) rest

structure URL where
  authority : List Char
  path : List (List Char)
  query : Option (List Char)
deriving DecidableEq, Repr

def afterScheme (text : List Char) : Option (List Char) :=
  (text.dropPrefix? "http://".toList).or (text.dropPrefix? "https://".toList)

def inAuthority (c : Char) : Bool := !isSlash c && c ≠ '?' && c ≠ '#'

/-- the path and the query of what follows the authority and a slash, without the fragment -/
def pathText (p : List Char) : List Char := (p.takeWhile (· ≠ '#')).takeWhile (· ≠ '?')

def queryText (p : List Char) : Option (List Char) :=
  match (p.takeWhile (· ≠ '#')).dropWhile (· ≠ '?') with
  | [] => none
  | _ :: query => some (encode specialQuerySet query)

/-- the text without what the parser takes out of it before it looks at it -/
def clean (input : List Char) : List Char :=
  ((input.dropWhile isC0OrSpace).rdropWhile isC0OrSpace).filter fun c => !isTabOrNewline c

def URL.parse (input : List Char) : Option URL :=
  (afterScheme (clean input)).bind fun text =>
    let rest := text.dropWhile inAuthority
    let rest := if (rest.head?.any isSlash) then rest.tail else rest
    if text.takeWhile inAuthority = [] then none
    else some
      { authority := text.takeWhile inAuthority
        path := normalize [] ((pathText rest).splitOnP isSlash)
        query := queryText rest }

/-- the fragment is not sent, and an empty query is none -/
def URL.target (url : URL) : List Char :=
  '/' :: (['/'].intercalate url.path ++
    match url.query with
    | none => []
    | some [] => []
    | some query => '?' :: query)

/-! ## the router -/

inductive Segment where
  | text (s : String) | param
deriving DecidableEq, Repr

structure Route (H : Type) where
  method : String
  path : List Segment
  handler : String → H

def decodeAll : List (List Char) → Option (List (List Char))
  | [] => some []
  | s :: rest => (decode s).bind fun t => (decodeAll rest).map (t :: ·)

/-- nothing if a segment cannot be decoded, a bad URL -/
def requestSegments (target : List Char) : Option (List (List Char)) :=
  decodeAll (((target.takeWhile (· ≠ '?')).drop 1).splitOn '/')

def querystring (target : List Char) : List Char := (target.dropWhile (· ≠ '?')).drop 1

def matchSegments : List Segment → List (List Char) → List Char → Option (List Char)
  | [], [], id => some id
  | .text s :: path, x :: xs, id => if s.toList = x then matchSegments path xs id else none
  | .param :: path, x :: xs, _ => matchSegments path xs x
  | _, _, _ => none

/-- the routes of a table with a text before those with a parameter in its place -/
def Route.first {H : Type} (routes : List (Route H)) (method : String)
    (segments : List (List Char)) : Option H :=
  routes.findSome? fun route =>
    if route.method = method then
      (matchSegments route.path segments []).map fun id => route.handler (String.ofList id)
    else none

def Route.find {H : Type} (routes : List (Route H)) (method : String) (target : List Char) :
    Option H :=
  (requestSegments target).bind (Route.first routes method)

/-! ## the text after an origin -/

/-- what the parser keeps of the text that follows the slash after the authority -/
def cleanEnd (p : List Char) : List Char :=
  (p.rdropWhile isC0OrSpace).filter fun c => !isTabOrNewline c

/-- the segments of the path, as they stand in the text -/
def pieces (p : List Char) : List (List Char) := (pathText (cleanEnd p)).splitOnP isSlash

/-- characters that the parser leaves in the segment that they stand in -/
def plainChar (c : Char) : Bool := inAuthority c && !isTabOrNewline c

theorem rdropWhile_append_cons {q : Char → Bool} {c : Char} (h : q c = false) (a b : List Char) :
    (a ++ c :: b).rdropWhile q = a ++ c :: b.rdropWhile q := by
  induction b using List.reverseRecOn with
  | nil => exact List.rdropWhile_concat_neg _ _ _ (by simp [h])
  | append_singleton b d ih =>
    rw [← List.cons_append, ← List.append_assoc]
    by_cases hd : q d = true
    · rw [List.rdropWhile_concat_pos _ _ _ hd, List.rdropWhile_concat_pos _ _ _ hd, ih]
    · rw [List.rdropWhile_concat_neg _ _ _ hd, List.rdropWhile_concat_neg _ _ _ hd,
        List.append_assoc, List.cons_append]

theorem cleanEnd_slash (a b : List Char) :
    cleanEnd (a ++ '/' :: b) = (a.filter fun c => !isTabOrNewline c) ++ '/' :: cleanEnd b := by
  have hslash : isC0OrSpace '/' = false := by decide
  unfold cleanEnd
  rw [rdropWhile_append_cons hslash, List.filter_append, List.filter_cons_of_pos (by decide)]

theorem cleanEnd_sublist (p : List Char) : (cleanEnd p).Sublist p :=
  List.filter_sublist.trans (List.rdropWhile_prefix _ _).sublist

theorem pathText_sublist (p : List Char) : (pathText p).Sublist p :=
  (List.takeWhile_sublist _).trans (List.takeWhile_sublist _)

/-- the characters that end the path are not before a slash, or there is nothing after it -/
theorem pathText_slash (a b : List Char) :
    pathText (a ++ '/' :: b) = pathText a ∨
      pathText (a ++ '/' :: b) = pathText a ++ '/' :: pathText b := by
  unfold pathText
  rw [List.takeWhile_append, List.takeWhile_cons_of_pos (by decide)]
  split
  · rename_i hall
    have heq := (List.takeWhile_prefix (· ≠ '#')).eq_of_length hall
    rw [heq, List.takeWhile_append, List.takeWhile_cons_of_pos (by decide)]
    split
    · rename_i hall'
      rw [(List.takeWhile_prefix (· ≠ '?')).eq_of_length hall']
      exact Or.inr rfl
    · exact Or.inl rfl
  · exact Or.inl rfl

theorem pathText_plain {a : List Char} (h : ∀ c ∈ a, plainChar c = true) (b : List Char) :
    pathText (a ++ b) = a ++ pathText b := by
  have hne : ∀ c ∈ a, c ≠ '#' ∧ c ≠ '?' := by
    intro c hc
    have := h c hc
    simp only [plainChar, inAuthority, Bool.and_eq_true, decide_eq_true_eq] at this
    exact ⟨this.1.2, this.1.1.2⟩
  unfold pathText
  rw [List.takeWhile_append_of_pos fun c hc => by simp [(hne c hc).1],
    List.takeWhile_append_of_pos fun c hc => by simp [(hne c hc).2]]

theorem mem_splitOnP {q : Char → Bool} {l s : List Char} (h : s ∈ l.splitOnP q) :
    s.Sublist l ∧ ∀ c ∈ s, q c = false := by
  induction l generalizing s with
  | nil =>
    rw [List.splitOnP_nil, List.mem_singleton] at h
    rw [h]
    exact ⟨List.Sublist.refl _, nofun⟩
  | cons c l ih =>
    rw [List.splitOnP_cons_eq_if_modifyHead] at h
    split at h
    · rcases List.mem_cons.mp h with rfl | h
      · exact ⟨List.nil_sublist _, nofun⟩
      · exact ⟨(ih h).1.cons c, (ih h).2⟩
    · rename_i hc
      cases hsplit : l.splitOnP q with
      | nil => exact absurd hsplit (List.splitOnP_ne_nil _ _)
      | cons x xs =>
        rw [hsplit] at ih h
        rcases List.mem_cons.mp h with rfl | h
        · obtain ⟨hsub, hq⟩ := ih List.mem_cons_self
          refine ⟨hsub.cons_cons c, fun d hd => ?_⟩
          rcases List.mem_cons.mp hd with rfl | hd
          · simpa using hc
          · exact hq d hd
        · obtain ⟨hsub, hq⟩ := ih (List.mem_cons_of_mem _ h)
          exact ⟨hsub.cons c, hq⟩

theorem plainChar_iff (c : Char) : plainChar c = true ↔
    isSlash c = false ∧ c ≠ '?' ∧ c ≠ '#' ∧ isTabOrNewline c = false := by
  simp [plainChar, inAuthority, and_assoc]

theorem mem_pieces_slash {a b s : List Char} (h : s ∈ pieces (a ++ '/' :: b)) :
    s.Sublist a ∨ s ∈ pieces b := by
  have hsub : (pathText (a.filter fun c => !isTabOrNewline c)).Sublist a :=
    (pathText_sublist _).trans List.filter_sublist
  unfold pieces at h
  rw [cleanEnd_slash] at h
  rcases pathText_slash (a.filter fun c => !isTabOrNewline c) (cleanEnd b) with heq | heq
  · rw [heq] at h
    exact Or.inl ((mem_splitOnP h).1.trans hsub)
  · rw [heq, List.splitOnP_append_cons _ _ (by decide), List.mem_append] at h
    exact h.imp_left fun h => (mem_splitOnP h).1.trans hsub

theorem plain_of_mem_pieces {p s : List Char} (h : s ∈ pieces p) :
    ∀ c ∈ s, plainChar c = true := by
  intro c hc
  obtain ⟨hsub, hslash⟩ := mem_splitOnP h
  have hpath := hsub.subset hc
  have hhash := (List.takeWhile_sublist _).subset hpath
  have hquery := List.mem_takeWhile_imp hpath
  have hhash' := List.mem_takeWhile_imp hhash
  have htab := (List.mem_filter.mp ((List.takeWhile_sublist _).subset hhash)).2
  rw [plainChar_iff]
  exact ⟨hslash c hc, by simpa using hquery, by simpa using hhash', by simpa using htab⟩

theorem filter_plain {a : List Char} (h : ∀ c ∈ a, plainChar c = true) :
    (a.filter fun c => !isTabOrNewline c) = a :=
  List.filter_eq_self.mpr fun c hc => by simp [((plainChar_iff c).mp (h c hc)).2.2.2]

theorem pieces_slash {a : List Char} (h : ∀ c ∈ a, plainChar c = true) (b : List Char) :
    pieces (a ++ '/' :: b) = a :: pieces b := by
  have hslash : pathText ('/' :: cleanEnd b) = '/' :: pathText (cleanEnd b) := by
    unfold pathText
    rw [List.takeWhile_cons_of_pos (by decide), List.takeWhile_cons_of_pos (by decide)]
  unfold pieces
  rw [cleanEnd_slash, filter_plain h, pathText_plain h, hslash,
    List.splitOnP_append_cons_of_forall_mem _ _ (by decide)]
  exact fun c hc => ((plainChar_iff c).mp (h c hc)).1

/-- the last part of the path, whose end is the end of the text -/
theorem pieces_last {a : List Char} (h : ∀ c ∈ a, plainChar c = true)
    (hend : ∀ hne : a ≠ [], isC0OrSpace (a.getLast hne) = false) : pieces a = [a] := by
  have hstrip : a.rdropWhile isC0OrSpace = a :=
    List.rdropWhile_eq_self_iff.mpr fun hne => by simp [hend hne]
  have hpath := pathText_plain h []
  rw [List.append_nil] at hpath
  unfold pieces cleanEnd
  rw [hstrip, filter_plain h, hpath]
  have hnil : a ++ pathText [] = a := List.append_nil a
  rw [hnil]
  exact List.splitOnP_eq_singleton fun c hc => ((plainChar_iff c).mp (h c hc)).1

/-- what is kept to the end ends the text that it is kept of -/
theorem getLast_of_cleanEnd {p : List Char} (h : pathText (cleanEnd p) = p) (hne : p ≠ []) :
    isC0OrSpace (p.getLast hne) = false := by
  have hsub : p.Sublist (p.rdropWhile isC0OrSpace) := by
    conv_lhs => rw [← h]
    exact (pathText_sublist _).trans List.filter_sublist
  have heq := (List.rdropWhile_prefix _ _).eq_of_length
    (Nat.le_antisymm (List.rdropWhile_prefix isC0OrSpace p).length_le hsub.length_le)
  simpa using List.rdropWhile_eq_self_iff.mp heq hne

/-! ## an origin and a path -/

/-- an authority as configurations have it -/
def IsAuthority (host : List Char) : Prop := host ≠ [] ∧ host.all plainChar = true

instance (host : List Char) : Decidable (IsAuthority host) := inferInstanceAs (Decidable (_ ∧ _))

theorem clean_origin {scheme host : List Char}
    (hs : scheme = "http://".toList ∨ scheme = "https://".toList) (h : IsAuthority host)
    (p : List Char) : clean (scheme ++ host ++ '/' :: p) = scheme ++ host ++ '/' :: cleanEnd p := by
  have hhead : (scheme ++ host ++ '/' :: p).dropWhile isC0OrSpace = scheme ++ host ++ '/' :: p := by
    rcases hs with rfl | rfl <;> rfl
  have hscheme : (scheme.filter fun c => !isTabOrNewline c) = scheme := by
    rcases hs with rfl | rfl <;> decide
  have hclean := cleanEnd_slash (scheme ++ host) p
  have hhost := filter_plain (List.all_eq_true.mp h.2)
  unfold clean
  rw [hhead]
  unfold cleanEnd at hclean
  rw [hclean, List.filter_append, hscheme, hhost]
  rfl

/-- **The path after an origin.** -/
theorem parse_origin {scheme host : List Char}
    (hs : scheme = "http://".toList ∨ scheme = "https://".toList) (h : IsAuthority host)
    (p : List Char) : URL.parse (scheme ++ host ++ '/' :: p) =
      some ⟨host, normalize [] (pieces p), queryText (cleanEnd p)⟩ := by
  have hauthority : ∀ c ∈ host, inAuthority c = true := by
    intro c hc
    have := List.all_eq_true.mp h.2 c hc
    rw [plainChar, Bool.and_eq_true] at this
    exact this.1
  have hafter : afterScheme (scheme ++ host ++ '/' :: cleanEnd p) =
      some (host ++ '/' :: cleanEnd p) := by
    rcases hs with rfl | rfl <;> simp [afterScheme, List.dropPrefix?]
  have htake : (host ++ '/' :: cleanEnd p).takeWhile inAuthority = host := by
    rw [List.takeWhile_append_of_pos hauthority, List.takeWhile_cons_of_neg (by decide),
      List.append_nil]
  have hdrop : (host ++ '/' :: cleanEnd p).dropWhile inAuthority = '/' :: cleanEnd p := by
    rw [List.dropWhile_append_of_pos hauthority, List.dropWhile_cons_of_neg (by decide)]
  unfold URL.parse
  rw [clean_origin hs h, hafter, Option.bind_some]
  dsimp only
  rw [htake, hdrop, if_neg h.1]
  rfl

/-! ## from the path to the segments of the router -/

def isDot (s : List Char) : Bool := isSingleDot s || isDoubleDot s

theorem isDot_eq_false {s : List Char} (h : isDot s = false) :
    isDoubleDot s = false ∧ isSingleDot s = false := by
  rw [isDot, Bool.or_eq_false_iff] at h
  exact h.symm

theorem toLower_eq {c d : Char} (hd : d.toNat < 97) (h : c.toLower = d) : c = d := by
  unfold Char.toLower at h
  split at h
  · rename_i hupper
    have hval := congrArg Char.toNat h
    have h65 : 65 ≤ c.toNat := UInt32.le_iff_toNat_le.mp hupper.1
    have h90 : c.toNat ≤ 90 := UInt32.le_iff_toNat_le.mp hupper.2
    have hadd : (c.val + ('a'.val - 'A'.val)).toNat = c.toNat + 32 := by
      rw [UInt32.toNat_add]
      exact Nat.mod_eq_of_lt (by show c.toNat + 32 < _; omega)
    have : c.toNat + 32 = d.toNat := by rw [← hadd, ← hval]; rfl
    omega
  · exact h

/-- without an escape, only the dot segments themselves -/
theorem isDot_iff {s : List Char} (h : '%' ∉ s) : isDot s = true ↔ s = ['.'] ∨ s = ['.', '.'] := by
  constructor
  · intro hdot
    have hpercent : '%' ∉ s.map Char.toLower := by
      intro hmap
      obtain ⟨c, hc, hlower⟩ := List.mem_map.mp hmap
      rw [toLower_eq (by decide) hlower] at hc
      exact h hc
    have hdots : s.map Char.toLower = ['.'] ∨ s.map Char.toLower = ['.', '.'] := by
      simp only [isDot, isSingleDot, isDoubleDot, Bool.or_eq_true, decide_eq_true_eq,
        List.mem_cons, List.not_mem_nil, or_false] at hdot
      rcases hdot with (heq | heq) | heq | heq | heq | heq <;> rw [heq] at hpercent ⊢ <;>
        first | exact absurd (by decide) hpercent | decide
    have hchars : ∀ c ∈ s, c = '.' := by
      intro c hc
      have hmem : c.toLower ∈ s.map Char.toLower := List.mem_map_of_mem hc
      rcases hdots with heq | heq <;> rw [heq] at hmem <;>
        exact toLower_eq (by decide) (by simpa using hmem)
    have hlength : s.length = 1 ∨ s.length = 2 := by
      rcases hdots with heq | heq
      · exact Or.inl (by simpa using congrArg List.length heq)
      · exact Or.inr (by simpa using congrArg List.length heq)
    rw [List.eq_replicate_of_mem hchars]
    rcases hlength with heq | heq
    · exact Or.inl (by rw [heq]; rfl)
    · exact Or.inr (by rw [heq]; rfl)
  · rintro (rfl | rfl) <;> decide

theorem normalize_plain {segs : List (List Char)} (h : ∀ s ∈ segs, isDot s = false)
    (out : List (List Char)) : normalize out segs = out ++ segs.map (encode pathSet) := by
  induction segs generalizing out with
  | nil => exact (List.append_nil out).symm
  | cons s rest ih =>
    obtain ⟨hdouble, hsingle⟩ := isDot_eq_false (h s List.mem_cons_self)
    rw [normalize, if_neg (by simp [hdouble]), if_neg (by simp [hsingle]),
      ih fun t ht => h t (List.mem_cons_of_mem _ ht), List.append_assoc]
    rfl

/-- a segment of the result was one of the text, or is the empty one after a dot segment -/
theorem mem_normalize {segs out : List (List Char)} {x : List Char} (h : x ∈ normalize out segs) :
    x ∈ out ∨ x = [] ∨ ∃ s ∈ segs, isDot s = false ∧ x = encode pathSet s := by
  induction segs generalizing out with
  | nil => exact Or.inl h
  | cons s rest ih =>
    have hlift : (∃ t ∈ rest, isDot t = false ∧ x = encode pathSet t) →
        ∃ t ∈ s :: rest, isDot t = false ∧ x = encode pathSet t := by
      rintro ⟨t, ht, hdot, hx⟩
      exact ⟨t, List.mem_cons_of_mem _ ht, hdot, hx⟩
    rw [normalize] at h
    split at h
    · rcases ih h with hout | hnil | hseg
      · split at hout
        · rcases List.mem_append.mp hout with hout | hout
          · exact Or.inl (List.dropLast_subset _ hout)
          · exact Or.inr (Or.inl (List.mem_singleton.mp hout))
        · exact Or.inl (List.dropLast_subset _ hout)
      · exact Or.inr (Or.inl hnil)
      · exact Or.inr (Or.inr (hlift hseg))
    · rename_i hdouble
      split at h
      · rcases ih h with hout | hnil | hseg
        · split at hout
          · rcases List.mem_append.mp hout with hout | hout
            · exact Or.inl hout
            · exact Or.inr (Or.inl (List.mem_singleton.mp hout))
          · exact Or.inl hout
        · exact Or.inr (Or.inl hnil)
        · exact Or.inr (Or.inr (hlift hseg))
      · rename_i hsingle
        rcases ih h with hout | hnil | hseg
        · rcases List.mem_append.mp hout with hout | hout
          · exact Or.inl hout
          · refine Or.inr (Or.inr ⟨s, List.mem_cons_self, ?_, List.mem_singleton.mp hout⟩)
            simp [isDot, hdouble, hsingle]
        · exact Or.inr (Or.inl hnil)
        · exact Or.inr (Or.inr (hlift hseg))

theorem normalize_ne_nil {segs : List (List Char)} (h : segs ≠ []) (out : List (List Char)) :
    normalize out segs ≠ [] := by
  induction segs generalizing out with
  | nil => exact absurd rfl h
  | cons s rest ih =>
    by_cases hrest : rest = []
    · subst hrest
      rw [normalize]
      split
      · simp [normalize]
      · split <;> simp [normalize]
    · rw [normalize]
      split
      · exact ih hrest _
      · split
        · exact ih hrest _
        · exact ih hrest _

theorem hexDigit_ne {n : Nat} (h : n < 16) : hexDigit n ≠ '/' ∧ hexDigit n ≠ '?' := by
  have hall : ∀ k : Fin 16, hexDigit k ≠ '/' ∧ hexDigit k ≠ '?' := by decide
  exact hall ⟨n, h⟩

/-- an encoded segment is one segment of the request target -/
theorem encode_ne {set : Char → Bool} {s : List Char}
    (h : ∀ c ∈ s, set c = false → c ≠ '/' ∧ c ≠ '?') :
    ∀ c ∈ encode set s, c ≠ '/' ∧ c ≠ '?' := by
  intro c hc
  obtain ⟨d, hd, hc⟩ := List.mem_flatMap.mp hc
  unfold encodeChar at hc
  split at hc
  · obtain ⟨b, _, hc⟩ := List.mem_flatMap.mp hc
    have hb : b.toNat < 256 := b.toNat_lt
    simp only [encodeByte, List.mem_cons, List.not_mem_nil, or_false] at hc
    rcases hc with rfl | rfl | rfl
    · decide
    · exact hexDigit_ne (by omega)
    · exact hexDigit_ne (Nat.mod_lt _ (by decide))
  · rename_i hset
    rw [List.mem_singleton.mp hc]
    exact h d hd (by simpa using hset)

theorem normalize_ne {segs : List (List Char)} (h : ∀ s ∈ segs, ∀ c ∈ s, plainChar c = true) :
    ∀ x ∈ normalize [] segs, ∀ c ∈ x, c ≠ '/' ∧ c ≠ '?' := by
  intro x hx
  rcases mem_normalize hx with hx | rfl | ⟨s, hs, _, rfl⟩
  · exact absurd hx List.not_mem_nil
  · exact nofun
  · refine encode_ne fun c hc _ => ?_
    obtain ⟨hslash, hquery, _⟩ := (plainChar_iff c).mp (h s hs c hc)
    refine ⟨?_, hquery⟩
    rintro rfl
    exact absurd hslash (by decide)

theorem mem_intercalate {segs : List (List Char)} {c : Char} (h : c ∈ ['/'].intercalate segs) :
    c = '/' ∨ ∃ x ∈ segs, c ∈ x := by
  induction segs with
  | nil => exact absurd h List.not_mem_nil
  | cons x rest ih =>
    cases rest with
    | nil =>
      rw [List.intercalate_singleton] at h
      exact Or.inr ⟨x, List.mem_cons_self, h⟩
    | cons y rest =>
      rw [List.intercalate_cons_cons, List.mem_append, List.mem_append] at h
      rcases h with (h | h) | h
      · exact Or.inr ⟨x, List.mem_cons_self, h⟩
      · exact Or.inl (List.mem_singleton.mp h)
      · rcases ih h with hslash | ⟨z, hz, hc⟩
        · exact Or.inl hslash
        · exact Or.inr ⟨z, List.mem_cons_of_mem _ hz, hc⟩

section target
variable {url : URL}

theorem path_ne_query (h : ∀ x ∈ url.path, ∀ c ∈ x, c ≠ '/' ∧ c ≠ '?') :
    ∀ c ∈ '/' :: ['/'].intercalate url.path, decide (c ≠ '?') = true := by
  intro c hc
  rw [decide_eq_true_eq]
  rcases List.mem_cons.mp hc with rfl | hc
  · decide
  · rcases mem_intercalate hc with rfl | ⟨x, hx, hc⟩
    · decide
    · exact (h x hx c hc).2

/-- the router reads the segments that the client has written -/
theorem requestSegments_target (hne : url.path ≠ [])
    (h : ∀ x ∈ url.path, ∀ c ∈ x, c ≠ '/' ∧ c ≠ '?') :
    requestSegments url.target = decodeAll url.path := by
  have htake : url.target.takeWhile (· ≠ '?') = '/' :: ['/'].intercalate url.path := by
    unfold URL.target
    rw [← List.cons_append, List.takeWhile_append_of_pos (path_ne_query h)]
    split <;> simp
  unfold requestSegments
  rw [htake, List.drop_succ_cons, List.drop_zero,
    List.splitOn_intercalate '/' (fun x hx hc => (h x hx '/' hc).1 rfl) hne]

theorem querystring_target (h : ∀ x ∈ url.path, ∀ c ∈ x, c ≠ '/' ∧ c ≠ '?') :
    querystring url.target = url.query.getD [] := by
  unfold querystring URL.target
  rw [← List.cons_append, List.dropWhile_append_of_pos (path_ne_query h)]
  split
  · rename_i hquery
    rw [hquery]
    rfl
  · rename_i hquery
    rw [hquery]
    rfl
  · rename_i hquery
    rw [hquery, List.dropWhile_cons_of_neg (by decide)]
    rfl

end target

theorem mem_decodeAll {segs out : List (List Char)} (h : decodeAll segs = some out) :
    ∀ x ∈ out, ∃ s ∈ segs, decode s = some x := by
  induction segs generalizing out with
  | nil =>
    cases h
    exact nofun
  | cons s rest ih =>
    rw [decodeAll] at h
    obtain ⟨t, ht, h⟩ := Option.bind_eq_some_iff.mp h
    obtain ⟨ts, hts, rfl⟩ := Option.map_eq_some_iff.mp h
    intro x hx
    rcases List.mem_cons.mp hx with rfl | hx
    · exact ⟨s, List.mem_cons_self, ht⟩
    · obtain ⟨u, hu, hdec⟩ := ih hts x hx
      exact ⟨u, List.mem_cons_of_mem _ hu, hdec⟩

theorem decodeAll_encode {set : Char → Bool} {segs : List (List Char)}
    (h : ∀ s ∈ segs, '%' ∈ s → set '%' = true) :
    decodeAll (segs.map (encode set)) = some segs := by
  induction segs with
  | nil => rfl
  | cons s rest ih =>
    rw [List.map_cons, decodeAll, decode_encode (h s List.mem_cons_self), Option.bind_some,
      ih fun t ht => h t (List.mem_cons_of_mem _ ht)]
    rfl

/-! ## the table -/

theorem first_some {H : Type} {routes : List (Route H)} {method : String}
    {segs : List (List Char)} {h : H} (hfirst : Route.first routes method segs = some h) :
    ∃ route ∈ routes, ∃ id, matchSegments route.path segs [] = some id ∧
      route.handler (String.ofList id) = h := by
  obtain ⟨route, hroute, heq⟩ := List.exists_of_findSome?_eq_some hfirst
  split at heq
  · obtain ⟨id, hid, rfl⟩ := Option.map_eq_some_iff.mp heq
    exact ⟨route, hroute, id, hid, rfl⟩
  · cases heq

/-- the route that is found is one for the method -/
theorem first_method {H : Type} {routes : List (Route H)} {method : String}
    {segs : List (List Char)} {h : H} (hfirst : Route.first routes method segs = some h) :
    ∃ route ∈ routes, route.method = method ∧ ∃ id, route.handler id = h := by
  obtain ⟨route, hroute, heq⟩ := List.exists_of_findSome?_eq_some hfirst
  split at heq
  · rename_i hmethod
    obtain ⟨id, _, hid⟩ := Option.map_eq_some_iff.mp heq
    exact ⟨route, hroute, hmethod, _, hid⟩
  · cases heq

theorem matchSegments_mem {path : List Segment} {segs : List (List Char)} {init id : List Char}
    (h : matchSegments path segs init = some id) : id ∈ segs ∨ id = init ∧ .param ∉ path := by
  induction path generalizing segs init with
  | nil =>
    cases segs with
    | nil => exact Or.inr ⟨(Option.some.inj h).symm, List.not_mem_nil⟩
    | cons x xs => cases h
  | cons p path ih =>
    cases segs with
    | nil => cases p <;> cases h
    | cons x xs =>
      cases p with
      | text s =>
        rw [matchSegments] at h
        split at h
        · rcases ih h with hmem | ⟨rfl, hnone⟩
          · exact Or.inl (List.mem_cons_of_mem _ hmem)
          · exact Or.inr ⟨rfl, by simpa using hnone⟩
        · cases h
      | param =>
        rw [matchSegments] at h
        rcases ih h with hmem | ⟨rfl, _⟩
        · exact Or.inl (List.mem_cons_of_mem _ hmem)
        · exact Or.inl List.mem_cons_self

/-! ## one hop -/

/-- what the router of the server at `url` is given: the authority, the segments and the query -/
def hop (url : List Char) : Option (List Char × List (List Char) × List Char) :=
  (URL.parse url).bind fun u =>
    (requestSegments u.target).map fun segs => (u.authority, segs, querystring u.target)

section hop
variable {scheme host : List Char}

theorem pieces_ne_nil (p : List Char) : pieces p ≠ [] := List.splitOnP_ne_nil _ _

theorem hop_origin (hs : scheme = "http://".toList ∨ scheme = "https://".toList)
    (h : IsAuthority host) (p : List Char) : hop (scheme ++ host ++ '/' :: p) =
      (decodeAll (normalize [] (pieces p))).map fun segs =>
        (host, segs, (queryText (cleanEnd p)).getD []) := by
  have hpath : ∀ x ∈ normalize [] (pieces p), ∀ c ∈ x, c ≠ '/' ∧ c ≠ '?' :=
    normalize_ne fun s hs => plain_of_mem_pieces hs
  unfold hop
  rw [parse_origin hs h, Option.bind_some, querystring_target hpath,
    requestSegments_target (normalize_ne_nil (pieces_ne_nil p) []) hpath]

theorem queryText_none {p : List Char} (h : '?' ∉ p) : queryText (cleanEnd p) = none := by
  have hdrop : ((cleanEnd p).takeWhile (· ≠ '#')).dropWhile (· ≠ '?') = [] := by
    rw [List.dropWhile_eq_nil_iff]
    intro c hc
    have hmem := (cleanEnd_sublist p).subset ((List.takeWhile_sublist _).subset hc)
    rw [decide_eq_true_eq]
    rintro rfl
    exact h hmem
  unfold queryText
  rw [hdrop]

/-- **A path of plain segments arrives as it was written.** -/
theorem hop_plain (hs : scheme = "http://".toList ∨ scheme = "https://".toList)
    (h : IsAuthority host) {p : List Char} (hquery : '?' ∉ p)
    (hdot : ∀ s ∈ pieces p, isDot s = false) (hpercent : ∀ s ∈ pieces p, '%' ∉ s) :
    hop (scheme ++ host ++ '/' :: p) = some (host, pieces p, []) := by
  rw [hop_origin hs h, normalize_plain hdot, List.nil_append,
    decodeAll_encode fun s hs hmem => absurd hmem (hpercent s hs), queryText_none hquery]
  rfl

/-- **A segment that arrives** is empty, or it is a segment of the path, or shorter than one. -/
theorem mem_hop (hs : scheme = "http://".toList ∨ scheme = "https://".toList)
    (h : IsAuthority host) {p : List Char} {segs : List (List Char)} {host' query : List Char}
    (hhop : hop (scheme ++ host ++ '/' :: p) = some (host', segs, query)) {x : List Char}
    (hx : x ∈ segs) : x = [] ∨ ∃ s ∈ pieces p, isDot s = false ∧
      (x = s ∧ '%' ∉ s ∨ '%' ∈ s ∧ (utf8 x).length < (utf8 s).length) := by
  rw [hop_origin hs h] at hhop
  obtain ⟨out, hout, heq⟩ := Option.map_eq_some_iff.mp hhop
  cases heq
  obtain ⟨t, ht, hdec⟩ := mem_decodeAll hout x hx
  rcases mem_normalize ht with ht | rfl | ⟨s, hs, hdot, rfl⟩
  · exact absurd ht List.not_mem_nil
  · cases hdec
    exact Or.inl rfl
  · refine Or.inr ⟨s, hs, hdot, ?_⟩
    by_cases hmem : '%' ∈ s
    · exact Or.inr ⟨hmem, decode_encode_lt (by decide) hdec hmem⟩
    · rw [decode_encode fun hc => absurd hc hmem] at hdec
      exact Or.inl ⟨(Option.some.inj hdec).symm, hmem⟩

end hop

end Lib
