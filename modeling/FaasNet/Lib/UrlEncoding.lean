import Mathlib.Data.List.TakeWhile

/-!
# URL encoding

A text is encoded byte by byte of its UTF-8: bytes of safe characters stand for themselves, a space for a plus and others for
a percent sign with two digits. A query is a list of pairs, separated by ampersands, up to the fragment. Reading one that was
joined without encoding gives the pairs back exactly if no name and no value has anything in it that means something.
-/

namespace FaasNet.Lib.Url

/-! ## Texts as bytes -/

def utf8 (text : List Char) : List UInt8 := text.flatMap String.utf8EncodeChar

def hexDigit (n : Nat) : Char := Char.ofNat (if n < 10 then n + 48 else n + 87)

def hexValue (c : Char) : Option Nat :=
  if 48 ≤ c.toNat ∧ c.toNat < 58 then some (c.toNat - 48)
  else if 97 ≤ c.toNat ∧ c.toNat < 103 then some (c.toNat - 87)
  else if 65 ≤ c.toNat ∧ c.toNat < 71 then some (c.toNat - 55)
  else none

/-- The characters that stand for themselves. -/
def isSafe (c : Char) : Bool := c.isAlphanum || c ∈ ['-', '_', '.', '!', '*', '(', ')']

def encodeByte (b : UInt8) : List Char :=
  if isSafe (Char.ofNat b.toNat) then [Char.ofNat b.toNat]
  else if b.toNat = 0x20 then ['+']
  else ['%', hexDigit (b.toNat / 16), hexDigit (b.toNat % 16)]

def encode (text : List Char) : List Char := (utf8 text).flatMap encodeByte

/-- The bytes that an encoded text stands for. A percent sign without two digits stands for itself. -/
def unescape : List Char → List UInt8
  | [] => []
  | '+' :: rest => 0x20 :: unescape rest
  | '%' :: a :: b :: rest =>
    match hexValue a, hexValue b with
    | some x, some y => UInt8.ofNat (x * 16 + y) :: unescape rest
    | _, _ => String.utf8EncodeChar '%' ++ unescape (a :: b :: rest)
  | c :: rest => String.utf8EncodeChar c ++ unescape rest

theorem unescape_plus (rest : List Char) : unescape ('+' :: rest) = 0x20 :: unescape rest := rfl

theorem unescape_hex {a b : Char} {x y : Nat} (hex : hexValue a = some x) (hex' : hexValue b = some y) (rest : List Char) :
    unescape ('%' :: a :: b :: rest) = UInt8.ofNat (x * 16 + y) :: unescape rest := by
  simp only [unescape, hex, hex']

theorem unescape_plain {c : Char} (noPlus : c ≠ '+') (noPercent : c ≠ '%') (rest : List Char) :
    unescape (c :: rest) = String.utf8EncodeChar c ++ unescape rest := by
  rw [unescape] <;> simp_all

/-- What a byte is encoded as. -/
theorem encodeByte_cases (b : UInt8) :
    (∃ c, encodeByte b = [c] ∧ isSafe c ∧ c ≠ '+' ∧ c ≠ '%' ∧ String.utf8EncodeChar c = [b]) ∨
      (encodeByte b = ['+'] ∧ b = 0x20) ∨
      ∃ a d, encodeByte b = ['%', a, d] ∧ isSafe a ∧ isSafe d ∧ ∃ x y, hexValue a = some x ∧ hexValue d = some y ∧
        UInt8.ofNat (x * 16 + y) = b := by
  have all : ∀ n : Fin 256,
      (isSafe (Char.ofNat n) ∧ Char.ofNat n ≠ '+' ∧ Char.ofNat n ≠ '%' ∧
        String.utf8EncodeChar (Char.ofNat n) = [UInt8.ofNat n]) ∨
      (isSafe (Char.ofNat n) = false ∧ isSafe (hexDigit (n.val / 16)) ∧ isSafe (hexDigit (n.val % 16)) ∧
        hexValue (hexDigit (n.val / 16)) = some (n.val / 16) ∧ hexValue (hexDigit (n.val % 16)) = some (n.val % 16)) := by
    decide +kernel
  have same : UInt8.ofNat b.toNat = b := UInt8.ofNat_toNat
  rcases all ⟨b.toNat, b.toNat_lt⟩ with ⟨safe, noPlus, noPercent, encoded⟩ | ⟨unsafe', first, second, hex, hex'⟩
  · exact .inl ⟨_, if_pos safe, safe, noPlus, noPercent, by simpa [same] using encoded⟩
  · by_cases space : b.toNat = 0x20
    · refine .inr (.inl ⟨?_, by rw [← same, space]; rfl⟩)
      rw [encodeByte, if_neg (by simpa using unsafe'), if_pos space]
    · refine .inr (.inr ⟨_, _, ?_, first, second, _, _, hex, hex', ?_⟩)
      · rw [encodeByte, if_neg (by simpa using unsafe'), if_neg space]
      · rw [Nat.div_add_mod' b.toNat 16, same]

theorem unescape_encodeByte (b : UInt8) (rest : List Char) : unescape (encodeByte b ++ rest) = b :: unescape rest := by
  rcases encodeByte_cases b with ⟨c, encoded, -, noPlus, noPercent, bytes⟩ | ⟨encoded, rfl⟩ |
    ⟨a, d, encoded, -, -, x, y, hex, hex', same⟩
  · rw [encoded, List.singleton_append, unescape_plain noPlus noPercent, bytes, List.singleton_append]
  · rw [encoded]
    rfl
  · rw [encoded, List.cons_append, List.cons_append, List.singleton_append, unescape_hex hex hex', same]

/-- What is encoded is read back. -/
theorem unescape_encode (text : List Char) : unescape (encode text) = utf8 text := by
  have bytes (l : List UInt8) : unescape (l.flatMap encodeByte) = l := by
    induction l with
    | nil => rfl
    | cons b l ih => rw [List.flatMap_cons, unescape_encodeByte, ih]
  exact bytes (utf8 text)

/-- An encoded text has no character that separates or replaces anything. -/
theorem mem_encode {text : List Char} {c : Char} (member : c ∈ encode text) : isSafe c ∨ c = '+' ∨ c = '%' := by
  obtain ⟨b, -, inside⟩ := List.mem_flatMap.mp member
  rcases encodeByte_cases b with ⟨c', encoded, safe, -⟩ | ⟨encoded, -⟩ | ⟨a, d, encoded, first, second, -⟩
  · rw [encoded, List.mem_singleton] at inside
    exact .inl (inside ▸ safe)
  · rw [encoded, List.mem_singleton] at inside
    exact .inr (.inl inside)
  · rw [encoded] at inside
    simp only [List.mem_cons, List.not_mem_nil, or_false] at inside
    rcases inside with rfl | rfl | rfl
    · exact .inr (.inr rfl)
    · exact .inl first
    · exact .inl second

/-! ## Queries -/

/-- The parts of a query between the ampersands, up to the fragment. -/
def pieces : List Char → List (List Char)
  | [] => [[]]
  | c :: rest =>
    if c = '#' then [[]]
    else if c = '&' then [] :: pieces rest
    else (c :: (pieces rest).headD []) :: (pieces rest).tail

/-- A part is a name and a value, with the first equals sign between them. -/
def pair (piece : List Char) : List UInt8 × List UInt8 :=
  (unescape (piece.takeWhile (· ≠ '=')), unescape ((piece.dropWhile (· ≠ '=')).drop 1))

/-- The pairs of a query. Empty parts are none. -/
def queryPairs (query : List Char) : List (List UInt8 × List UInt8) :=
  ((pieces query).filter (!·.isEmpty)).map pair

/-- The text of a pair, without encoding. -/
def joined (pair : List Char × List Char) : List Char := pair.1 ++ '=' :: pair.2

/-- The text of some pairs. -/
def join : List (List Char × List Char) → List Char
  | [] => []
  | [p] => joined p
  | p :: q :: pairs => joined p ++ '&' :: join (q :: pairs)

/-- Nothing in the name or the value means something in a query. -/
structure Clean (name value : List Char) : Prop where
  name_and : '&' ∉ name
  name_hash : '#' ∉ name
  name_eq : '=' ∉ name
  value_and : '&' ∉ value
  value_hash : '#' ∉ value
  name_escape : unescape name = utf8 name
  value_escape : unescape value = utf8 value

theorem pieces_cons (c : Char) (rest : List Char) :
    pieces (c :: rest) = if c = '#' then [[]]
      else if c = '&' then [] :: pieces rest
      else (c :: (pieces rest).headD []) :: (pieces rest).tail := rfl

theorem pieces_ne_nil (query : List Char) : pieces query ≠ [] := by
  cases query with
  | nil => exact List.cons_ne_nil [] []
  | cons c rest =>
    rw [pieces_cons]
    split
    · simp
    · split <;> simp

/-- A text without separators is one part. -/
theorem pieces_of_plain {text : List Char} (noAnd : '&' ∉ text) (noHash : '#' ∉ text) : pieces text = [text] := by
  induction text with
  | nil => rfl
  | cons c rest ih =>
    simp only [List.mem_cons, not_or] at noAnd noHash
    rw [pieces_cons, if_neg (Ne.symm noHash.1), if_neg (Ne.symm noAnd.1), ih noAnd.2 noHash.2]
    rfl

/-- An ampersand ends a part, unless the fragment has begun. -/
theorem pieces_append (text rest : List Char) :
    pieces (text ++ '&' :: rest) = pieces text ++ if '#' ∈ text then [] else pieces rest := by
  induction text with
  | nil => rfl
  | cons c text ih =>
    rw [List.cons_append, pieces_cons, pieces_cons]
    by_cases hash : c = '#'
    · simp [hash]
    · rw [if_neg hash, if_neg hash, ih]
      have others : ('#' ∈ c :: text) = ('#' ∈ text) := by simp [Ne.symm hash]
      simp only [others]
      split
      · rw [List.cons_append]
      · obtain ⟨first, parts, parted⟩ := List.exists_cons_of_ne_nil (pieces_ne_nil text)
        simp [parted]

theorem pieces_fragment (text rest : List Char) : pieces (text ++ '#' :: rest) = pieces text := by
  induction text with
  | nil => rfl
  | cons c text ih => rw [List.cons_append, pieces_cons, pieces_cons, ih]

theorem sublist_of_mem_pieces {query piece : List Char} (member : piece ∈ pieces query) : piece.Sublist query := by
  induction query generalizing piece with
  | nil =>
    obtain rfl := List.mem_singleton.mp member
    exact .slnil
  | cons c rest ih =>
    rw [pieces_cons] at member
    split at member
    · obtain rfl := List.mem_singleton.mp member
      exact List.nil_sublist _
    · split at member
      · rcases List.mem_cons.mp member with rfl | later
        · exact List.nil_sublist _
        · exact (ih later).cons _
      · obtain ⟨first, parts, parted⟩ := List.exists_cons_of_ne_nil (pieces_ne_nil rest)
        rw [parted] at member ih
        rcases List.mem_cons.mp member with rfl | later
        · exact (ih List.mem_cons_self).cons_cons _
        · exact (ih (List.mem_cons_of_mem _ later)).cons _

/-- A part of a text has fewer bytes, unless it is the text. -/
theorem utf8_of_sublist {part text : List Char} (sublist : part.Sublist text) :
    (utf8 part).length ≤ (utf8 text).length ∧ ((utf8 part).length = (utf8 text).length → part = text) := by
  induction sublist with
  | slnil => simp
  | cons c _ ih =>
    have := Char.utf8Size_pos c
    simp only [utf8, List.flatMap_cons, List.length_append, String.length_utf8EncodeChar] at ih ⊢
    exact ⟨by omega, fun same => by omega⟩
  | cons_cons c _ ih =>
    simp only [utf8, List.flatMap_cons, List.length_append, String.length_utf8EncodeChar] at ih ⊢
    exact ⟨by omega, fun same => by rw [ih.2 (by omega)]⟩

theorem length_unescape_le (text : List Char) : (unescape text).length ≤ (utf8 text).length := by
  induction text using unescape.induct with
  | case1 => rfl
  | case2 rest ih =>
    simp only [unescape_plus, utf8, List.flatMap_cons, List.length_cons, List.length_append, String.length_utf8EncodeChar] at ih ⊢
    have : '+'.utf8Size = 1 := by decide
    omega
  | case3 a b rest x y hex hex' ih =>
    rw [unescape_hex hex' hex]
    simp only [utf8, List.flatMap_cons, List.length_cons, List.length_append, String.length_utf8EncodeChar] at ih ⊢
    have : '%'.utf8Size = 1 := by decide
    omega
  | case4 a b rest noHex ih =>
    have escaped : unescape ('%' :: a :: b :: rest) = String.utf8EncodeChar '%' ++ unescape (a :: b :: rest) := by
      rw [unescape]
      split
      next x y hex hex' => exact absurd hex' (noHex x y hex)
      next => rfl
    rw [escaped]
    simp only [utf8, List.flatMap_cons, List.length_append, String.length_utf8EncodeChar] at ih ⊢
    omega
  | case5 c rest noPlus noEscape ih =>
    rw [unescape]
    · simp only [utf8, List.flatMap_cons, List.length_append, String.length_utf8EncodeChar] at ih ⊢
      omega
    · exact noPlus
    · exact noEscape

/-- The name and the value of a part have its bytes, less the sign between them. -/
theorem length_pair_le (piece : List Char) :
    (pair piece).1.length + (pair piece).2.length + (if '=' ∈ piece then 1 else 0) ≤ (utf8 piece).length := by
  have name := length_unescape_le (piece.takeWhile (· ≠ '='))
  have value := length_unescape_le ((piece.dropWhile (· ≠ '=')).drop 1)
  have parts : utf8 piece = utf8 (piece.takeWhile (· ≠ '=')) ++ utf8 (piece.dropWhile (· ≠ '=')) := by
    rw [utf8, utf8, utf8, ← List.flatMap_append, List.takeWhile_append_dropWhile]
  rw [parts, List.length_append, pair]
  cases rest : piece.dropWhile (· ≠ '=') with
  | nil =>
    have absent : '=' ∉ piece := by
      intro inside
      have all := List.dropWhile_eq_nil_iff.mp rest '=' inside
      simp at all
    rw [rest] at value
    simp only [List.drop_nil, if_neg absent] at value ⊢
    omega
  | cons c after =>
    rw [rest] at value
    have sign : c = '=' := by
      have first := List.head?_dropWhile_not (· ≠ '=') piece
      rw [rest] at first
      simpa using first
    subst sign
    simp only [List.drop_succ_cons, List.drop_zero, utf8, List.flatMap_cons, List.length_append,
      String.length_utf8EncodeChar] at name value ⊢
    have : '='.utf8Size = 1 := by decide
    split <;> omega

/-- A text with an ampersand or a fragment in it has parts that lack this character. -/
theorem sublist_of_separated {before after piece : List Char} {c : Char} (separator : c = '&' ∨ c = '#')
    (member : piece ∈ pieces (before ++ c :: after)) : piece.Sublist (before ++ after) := by
  have first (here : piece ∈ pieces before) : piece.Sublist (before ++ after) :=
    (sublist_of_mem_pieces here).trans (List.sublist_append_left before after)
  rcases separator with rfl | rfl
  · rw [pieces_append] at member
    rcases List.mem_append.mp member with here | later
    · exact first here
    · split at later
      · cases later
      · exact (sublist_of_mem_pieces later).trans (List.sublist_append_right before after)
  · rw [pieces_fragment] at member
    exact first member

/-- A pair that is read as it was joined has nothing in it that separates. -/
theorem not_mem_of_read {name value : List Char} {c : Char} (separator : c = '&' ∨ c = '#')
    (read : (utf8 name, utf8 value) ∈ queryPairs (joined (name, value))) : c ∉ joined (name, value) := by
  intro inside
  obtain ⟨before, after, split⟩ := List.append_of_mem inside
  obtain ⟨piece, member, same⟩ := List.mem_map.mp read
  have part : piece.Sublist (before ++ after) := by
    rw [split] at member
    exact sublist_of_separated separator (List.mem_filter.mp member).1
  have bytes := congrArg (fun text => (utf8 text).length) split
  obtain ⟨least, whole⟩ := utf8_of_sublist part
  have short := length_pair_le piece
  rw [same] at short
  have one : '='.utf8Size = 1 := by decide
  have one' : c.utf8Size = 1 := by rcases separator with rfl | rfl <;> decide
  simp only [joined, utf8, List.flatMap_append, List.flatMap_cons, List.length_append, String.length_utf8EncodeChar]
    at bytes least whole short
  have sign : '=' ∈ before ++ after := by
    have there : '=' ∈ before ++ c :: after := by
      rw [← split]
      simp [joined]
    have other : c ≠ '=' := by rcases separator with rfl | rfl <;> decide
    simpa [other.symm] using there
  obtain rfl := whole (by omega)
  rw [if_pos sign] at short
  omega

/-- And is read as its name and its value. -/
theorem clean_of_pair {name value : List Char} (same : pair (joined (name, value)) = (utf8 name, utf8 value)) :
    '=' ∉ name ∧ unescape name = utf8 name ∧ unescape value = utf8 value := by
  have absent : '=' ∉ name := by
    intro inside
    obtain ⟨before, after, rfl, first⟩ := List.eq_append_cons_of_mem inside
    have taken : (joined (before ++ '=' :: after, value)).takeWhile (· ≠ '=') = before := by
      have all : ∀ c ∈ before, decide (c ≠ '=') = true := by
        intro c member
        simp only [decide_eq_true_eq]
        rintro rfl
        exact first member
      rw [joined, List.append_assoc, List.takeWhile_append_of_pos all]
      simp
    have name' := congrArg Prod.fst same
    rw [pair, taken] at name'
    have short := length_unescape_le before
    have bytes := congrArg List.length name'
    have one : '='.utf8Size = 1 := by decide
    simp only [utf8, List.flatMap_append, List.flatMap_cons, List.length_append, String.length_utf8EncodeChar] at bytes short
    omega
  have all : ∀ c ∈ name, decide (c ≠ '=') = true := by
    intro c member
    simp only [decide_eq_true_eq]
    rintro rfl
    exact absent member
  rw [pair, joined, List.takeWhile_append_of_pos all, List.dropWhile_append_of_pos all] at same
  simp only [ne_eq, not_true_eq_false, decide_false, Bool.false_eq_true, not_false_eq_true, List.takeWhile_cons_of_neg,
    List.append_nil, List.dropWhile_cons_of_neg, List.drop_succ_cons, List.drop_zero, Prod.mk.injEq] at same
  exact ⟨absent, same⟩

theorem pair_of_clean {name value : List Char} (clean : Clean name value) :
    queryPairs (joined (name, value)) = [(utf8 name, utf8 value)] := by
  have noAnd : '&' ∉ joined (name, value) := by simp [joined, clean.name_and, clean.value_and]
  have noHash : '#' ∉ joined (name, value) := by simp [joined, clean.name_hash, clean.value_hash]
  have all : ∀ c ∈ name, decide (c ≠ '=') = true := by
    intro c member
    simp only [decide_eq_true_eq]
    rintro rfl
    exact clean.name_eq member
  have nonempty : (joined (name, value)).isEmpty = false := by simp [joined]
  rw [queryPairs, pieces_of_plain noAnd noHash]
  simp only [List.filter_cons, nonempty, Bool.not_false, if_true, List.filter_nil, List.map_cons, List.map_nil]
  rw [pair, joined, List.takeWhile_append_of_pos all, List.dropWhile_append_of_pos all]
  simp [clean.name_escape, clean.value_escape]

/-- A pair is read first as it was joined exactly if nothing in it means something. -/
theorem clean_iff {name value : List Char} :
    (queryPairs (joined (name, value))).head? = some (utf8 name, utf8 value) ↔ Clean name value := by
  constructor
  · intro first
    have read := List.mem_of_head? first
    have noAnd := not_mem_of_read (.inl rfl) read
    have noHash := not_mem_of_read (.inr rfl) read
    have nonempty : (joined (name, value)).isEmpty = false := by simp [joined]
    have same : pair (joined (name, value)) = (utf8 name, utf8 value) := by
      rw [queryPairs, pieces_of_plain noAnd noHash] at first
      simpa [nonempty] using first
    obtain ⟨noSign, name', value'⟩ := clean_of_pair same
    simp only [joined, List.mem_append, List.mem_cons, not_or] at noAnd noHash
    exact ⟨noAnd.1, noHash.1, noSign, noAnd.2.2, noHash.2.2, name', value'⟩
  · intro clean
    rw [pair_of_clean clean]
    rfl

/-- What comes after an ampersand is read on its own. -/
theorem queryPairs_append (text rest : List Char) :
    queryPairs (text ++ '&' :: rest) = queryPairs text ++ if '#' ∈ text then [] else queryPairs rest := by
  rw [queryPairs, queryPairs, pieces_append, List.filter_append, List.map_append]
  split
  · rfl
  · rfl

/-- A character that does not separate is in some part. -/
theorem exists_mem_pieces {text : List Char} {c : Char} (member : c ∈ text) (noAnd : c ≠ '&') (noHash : '#' ∉ text) :
    ∃ piece ∈ pieces text, c ∈ piece := by
  induction text with
  | nil => cases member
  | cons d text ih =>
    simp only [List.mem_cons, not_or] at noHash
    rw [pieces_cons, if_neg (Ne.symm noHash.1)]
    obtain ⟨first, parts, parted⟩ := List.exists_cons_of_ne_nil (pieces_ne_nil text)
    rw [parted] at ih ⊢
    split
    next separates =>
      obtain ⟨piece, inside, there⟩ := ih ((List.mem_cons.mp member).resolve_left (separates ▸ noAnd)) noHash.2
      exact ⟨piece, List.mem_cons_of_mem _ inside, there⟩
    next =>
      rcases List.mem_cons.mp member with rfl | later
      · exact ⟨_, List.mem_cons_self, List.mem_cons_self⟩
      · obtain ⟨piece, inside, there⟩ := ih later noHash.2
        rcases List.mem_cons.mp inside with rfl | others
        · exact ⟨_, List.mem_cons_self, List.mem_cons_of_mem _ there⟩
        · exact ⟨piece, List.mem_cons_of_mem _ others, there⟩

/-- A pair is read as some pair, if no fragment begins in it. -/
theorem queryPairs_joined_ne_nil {p : List Char × List Char} (noHash : '#' ∉ joined p) : queryPairs (joined p) ≠ [] := by
  obtain ⟨piece, inside, there⟩ := @exists_mem_pieces (joined p) '=' (by simp [joined]) (by decide) noHash
  have nonempty : (!piece.isEmpty) = true := by
    cases piece with
    | nil => cases there
    | cons c piece => rfl
  exact List.ne_nil_of_mem (List.mem_map_of_mem (List.mem_filter.mpr ⟨inside, nonempty⟩))

/-- The pairs of the first one come before those of the others, if no fragment begins in it. -/
theorem queryPairs_join_cons (p : List Char × List Char) (pairs : List (List Char × List Char)) :
    queryPairs (join (p :: pairs)) = queryPairs (joined p) ++ if '#' ∈ joined p then [] else queryPairs (join pairs) := by
  cases pairs with
  | nil => simp [join, queryPairs, pieces]
  | cons q pairs => rw [join, queryPairs_append]

/-- Pairs at the beginning are read as they were joined exactly if nothing in them means something; the others are read on
their own then. -/
theorem queryPairs_join_append_iff {pairs others : List (List Char × List Char)} {rest : List (List UInt8 × List UInt8)} :
    queryPairs (join (pairs ++ others)) = pairs.map (fun p => (utf8 p.1, utf8 p.2)) ++ rest ↔
      (∀ p ∈ pairs, Clean p.1 p.2) ∧ queryPairs (join others) = rest := by
  induction pairs with
  | nil => simp
  | cons p pairs ih =>
    rw [List.cons_append, queryPairs_join_cons, List.map_cons, List.cons_append, List.forall_mem_cons]
    constructor
    · intro read
      have clean : Clean p.1 p.2 := by
        rw [← clean_iff]
        cases here : queryPairs (joined p) with
        | nil =>
          have hash : '#' ∈ joined p := by
            by_contra noHash
            exact queryPairs_joined_ne_nil noHash here
          rw [here, if_pos hash] at read
          cases read
        | cons first parts =>
          rw [here, List.cons_append] at read
          rw [List.head?_cons, (List.cons.inj read).1]
      have noHash : '#' ∉ joined p := by simp [joined, clean.name_hash, clean.value_hash]
      rw [pair_of_clean clean, if_neg noHash] at read
      obtain ⟨cleans, rest⟩ := ih.mp (List.cons.inj read).2
      exact ⟨⟨clean, cleans⟩, rest⟩
    · rintro ⟨⟨clean, cleans⟩, rest⟩
      have noHash : '#' ∉ joined p := by simp [joined, clean.name_hash, clean.value_hash]
      rw [pair_of_clean clean, if_neg noHash, ih.mpr ⟨cleans, rest⟩]
      rfl

end FaasNet.Lib.Url
