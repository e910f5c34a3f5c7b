import Mathlib.Data.List.Chain
import Mathlib.Data.Sum.Basic

/-!
# JSON texts with holes

The texts of a JSON value, as a relation: white space, escapes and the way numbers are written are free. A text can have
holes that stand for values; such a text denotes the value that it has with these in their places. If every hole is filled
with a text of its value, this is what the filled text denotes. Nothing here depends on what numbers and holes are.
-/

namespace FaasNet.Lib

/-- JSON values. -/
inductive Json (N : Type*) where
  | null
  | boolean (value : Bool)
  | number (value : N)
  | string (value : List Char)
  | array (items : List (Json N))
  | object (members : List (List Char × Json N))

namespace Json

section
variable {N H : Type*}

/-! ## Parts of a value -/

/-- A value that stands `k` levels down in another one. -/
inductive PartAt : Nat → Json N → Json N → Prop where
  | whole (v : Json N) : PartAt 0 v v
  | item {k : Nat} {u v : Json N} {items : List (Json N)} (mem : v ∈ items) (part : PartAt k u v) :
    PartAt (k + 1) u (.array items)
  | member {k : Nat} {u : Json N} {m : List Char × Json N} {members : List (List Char × Json N)} (mem : m ∈ members)
    (part : PartAt k u m.2) : PartAt (k + 1) u (.object members)

def IsContainer : Json N → Prop
  | array _ => True
  | object _ => True
  | _ => False

/-- The names in an object are distinct. -/
def Distinct (j : Json N) : Prop := ∀ k members, PartAt k (.object members) j → (members.map (·.1)).Nodup

/-- Every string has a property. -/
def Strings (P : List Char → Prop) (j : Json N) : Prop := ∀ k s, PartAt k (.string s) j → P s

/-- Nested less than `d` deep. -/
def Within (d : Nat) (j : Json N) : Prop := ∀ k part, PartAt k part j → part.IsContainer → k < d

/-- What a value has, its parts have. -/
def Hereditary (P : Json N → Prop) : Prop := ∀ k part j, PartAt k part j → P j → P part

/-- A part of a part is a part. -/
theorem PartAt.trans {k l : Nat} {u v w : Json N} (upper : PartAt l v w) (lower : PartAt k u v) : PartAt (k + l) u w := by
  induction upper with
  | whole => exact lower
  | item mem _ ih => exact .item mem (ih lower)
  | member mem _ ih => exact .member mem (ih lower)

theorem hereditary_distinct : Hereditary (Distinct (N := N)) :=
  fun _ _ _ part distinct _ members lower => distinct _ members (part.trans lower)

theorem hereditary_strings (P : List Char → Prop) : Hereditary (Strings (N := N) P) :=
  fun _ _ _ part strings _ s lower => strings _ s (part.trans lower)

theorem hereditary_within (d : Nat) : Hereditary (Within (N := N) d) := fun k _ _ part within l lower sub container => by
  have deeper := within _ lower (part.trans sub) container
  omega

/-! ## Texts -/

/-- A character, or a hole. -/
abbrev Symbol (H : Type*) := Char ⊕ H

def chars (text : List Char) : List (Symbol H) := text.map .inl

def IsBlank (c : Char) : Prop := c = ' ' ∨ c = '\t' ∨ c = '\n' ∨ c = '\r'

def Blank (text : List Char) : Prop := ∀ c ∈ text, IsBlank c

def hexDigit (c : Char) : Option Nat :=
  if '0' ≤ c ∧ c ≤ '9' then some (c.toNat - '0'.toNat)
  else if 'a' ≤ c ∧ c ≤ 'f' then some (c.toNat - 'a'.toNat + 10)
  else if 'A' ≤ c ∧ c ≤ 'F' then some (c.toNat - 'A'.toNat + 10)
  else none

def hexValue (digits : List Char) : Option Nat :=
  digits.foldlM (fun n c => (hexDigit c).map (n * 16 + ·)) 0

/-- The escapes of a string. -/
inductive Escape : List Char → Char → Prop where
  | short (e c : Char) (named : (e, c) ∈ [('\"', '\"'), ('\\', '\\'), ('/', '/'), ('b', '\x08'), ('f', '\x0c'),
      ('n', '\n'), ('r', '\r'), ('t', '\t')]) : Escape ['\\', e] c
  | unicode (digits : List Char) (c : Char) (four : digits.length = 4) (value : hexValue digits = some c.toNat) :
    Escape ('\\' :: 'u' :: digits) c
  | surrogates (high low : List Char) (h l : Nat) (c : Char) (four : high.length = 4 ∧ low.length = 4)
    (values : hexValue high = some (0xD800 + h) ∧ hexValue low = some (0xDC00 + l)) (small : h < 0x400 ∧ l < 0x400)
    (value : c.toNat = 0x10000 + h * 0x400 + l) : Escape ('\\' :: 'u' :: high ++ '\\' :: 'u' :: low) c

/-- What stands between the quotes of a string. Control characters may stand for themselves. -/
inductive StringBody : List Char → List Char → Prop where
  | nil : StringBody [] []
  | plain {c : Char} {s body : List Char} (notQuote : c ≠ '\"') (notEscape : c ≠ '\\') (rest : StringBody s body) :
    StringBody (c :: s) (c :: body)
  | escape {c : Char} {e s body : List Char} (escape : Escape e c) (rest : StringBody s body) :
    StringBody (c :: s) (e ++ body)

def quoted (body : List Char) : List Char := '\"' :: body ++ ['\"']

/-- The name of a member, with the white space around it. -/
def NameText (name key : List Char) : Prop :=
  ∃ b body b', Blank b ∧ StringBody name body ∧ Blank b' ∧ key = b ++ quoted body ++ b'

/-- What a text can be of: a value, alone or in white space, what stands in an array or in an object. -/
inductive Node (N : Type*) where
  | value (v : Json N)
  | spaced (v : Json N)
  | items (vs : List (Json N))
  | members (ms : List (List Char × Json N))

/-- The texts of a value whose holes stand for some values. -/
inductive Written (numberText : N → List Char → Prop) (holes : H → Json N) : Node N → List (Symbol H) → Prop where
  | null : Written numberText holes (.value .null) (chars ['n', 'u', 'l', 'l'])
  | true : Written numberText holes (.value (.boolean true)) (chars ['t', 'r', 'u', 'e'])
  | false : Written numberText holes (.value (.boolean false)) (chars ['f', 'a', 'l', 's', 'e'])
  | number {n : N} {text : List Char} (number : numberText n text) :
    Written numberText holes (.value (.number n)) (chars text)
  | string {s body : List Char} (string : StringBody s body) :
    Written numberText holes (.value (.string s)) (chars (quoted body))
  | hole (h : H) : Written numberText holes (.value (holes h)) [.inr h]
  | array {vs : List (Json N)} {text : List (Symbol H)} (items : Written numberText holes (.items vs) text) :
    Written numberText holes (.value (.array vs)) (.inl '[' :: text ++ [.inl ']'])
  | object {ms : List (List Char × Json N)} {text : List (Symbol H)} (members : Written numberText holes (.members ms) text) :
    Written numberText holes (.value (.object ms)) (.inl '{' :: text ++ [.inl '}'])
  | spaced {v : Json N} {text : List (Symbol H)} {b b' : List Char} (before : Blank b)
    (value : Written numberText holes (.value v) text) (after : Blank b') :
    Written numberText holes (.spaced v) (chars b ++ text ++ chars b')
  | noItems {b : List Char} (blank : Blank b) : Written numberText holes (.items []) (chars b)
  | lastItem {v : Json N} {text : List (Symbol H)} (item : Written numberText holes (.spaced v) text) :
    Written numberText holes (.items [v]) text
  | item {v w : Json N} {vs : List (Json N)} {text rest : List (Symbol H)} (item : Written numberText holes (.spaced v) text)
    (others : Written numberText holes (.items (w :: vs)) rest) :
    Written numberText holes (.items (v :: w :: vs)) (text ++ .inl ',' :: rest)
  | noMembers {b : List Char} (blank : Blank b) : Written numberText holes (.members []) (chars b)
  | lastMember {name key : List Char} {v : Json N} {text : List (Symbol H)} (nameText : NameText name key)
    (value : Written numberText holes (.spaced v) text) :
    Written numberText holes (.members [(name, v)]) (chars key ++ .inl ':' :: text)
  | member {name key : List Char} {v : Json N} {m : List Char × Json N} {ms : List (List Char × Json N)}
    {text rest : List (Symbol H)} (nameText : NameText name key) (value : Written numberText holes (.spaced v) text)
    (others : Written numberText holes (.members (m :: ms)) rest) :
    Written numberText holes (.members ((name, v) :: m :: ms)) (chars key ++ .inl ':' :: text ++ .inl ',' :: rest)

/-- A text without holes. -/
def TextOf (numberText : N → List Char → Prop) (j : Json N) (text : List Char) : Prop :=
  Written numberText Empty.elim (.spaced j) (chars text)

/-- The text with something in the place of each hole. -/
def fill (texts : H → List Char) (symbols : List (Symbol H)) : List Char := symbols.flatMap (Sum.elim (fun c => [c]) texts)

variable {numberText : N → List Char → Prop} {holes : H → Json N} {texts : H → List Char} {node : Node N}
  {symbols : List (Symbol H)}

@[simp] theorem chars_nil : (chars [] : List (Symbol H)) = [] := rfl

@[simp] theorem chars_cons (c : Char) (text : List Char) : (chars (c :: text) : List (Symbol H)) = .inl c :: chars text := rfl

@[simp] theorem chars_append (text text' : List Char) :
    (chars (text ++ text') : List (Symbol H)) = chars text ++ chars text' := List.map_append

@[simp] theorem fill_nil : fill texts [] = [] := rfl

@[simp] theorem fill_inl (c : Char) : fill texts (.inl c :: symbols) = c :: fill texts symbols := rfl

@[simp] theorem fill_inr (h : H) : fill texts (.inr h :: symbols) = texts h ++ fill texts symbols := rfl

@[simp] theorem fill_append (before after : List (Symbol H)) :
    fill texts (before ++ after) = fill texts before ++ fill texts after := List.flatMap_append

@[simp] theorem fill_chars (text : List Char) : fill texts (chars text) = text := by
  induction text with
  | nil => rfl
  | cons c rest ih => rw [chars_cons, fill_inl, ih]

/-- **A text whose holes are filled with texts of their values denotes what the text with holes does.** -/
theorem Written.unpadded {v : Json N} (written : Written numberText holes (.value v) symbols) :
    Written numberText holes (.spaced v) symbols := by
  have nothing : Blank [] := fun _ mem => by cases mem
  have padded := Written.spaced nothing written nothing
  rwa [chars_nil, List.nil_append, List.append_nil] at padded

theorem Written.fill (written : Written numberText holes node symbols)
    (filled : ∀ h, .inr h ∈ symbols → Written numberText Empty.elim (.value (holes h)) (chars (texts h))) :
    Written numberText Empty.elim node (chars (fill texts symbols)) := by
  induction written with
  | null => exact .null
  | true => exact .true
  | false => exact .false
  | number number => rw [fill_chars]; exact .number number
  | string string => rw [fill_chars]; exact .string string
  | hole h => simpa using filled h (by simp)
  | array items ih =>
    have inner := ih fun h mem => filled h (by simp [mem])
    simpa using Written.array inner
  | object members ih =>
    have inner := ih fun h mem => filled h (by simp [mem])
    simpa using Written.object inner
  | spaced before value after ih =>
    have inner := ih fun h mem => filled h (by simp [mem])
    simpa using Written.spaced before inner after
  | noItems blank => rw [fill_chars]; exact .noItems blank
  | lastItem item ih => exact .lastItem (ih filled)
  | item item others ih ih' =>
    have first := ih fun h mem => filled h (by simp [mem])
    have rest := ih' fun h mem => filled h (by simp [mem])
    simpa using Written.item first rest
  | noMembers blank => rw [fill_chars]; exact .noMembers blank
  | lastMember nameText value ih =>
    have inner := ih fun h mem => filled h (by simp [mem])
    simpa using Written.lastMember nameText inner
  | member nameText value others ih ih' =>
    have first := ih fun h mem => filled h (by simp [mem])
    have rest := ih' fun h mem => filled h (by simp [mem])
    simpa using Written.member nameText first rest

/-! ## What a text tells of its value -/

/-- The values a text is of. -/
def Node.values : Node N → List (Json N)
  | value v => [v]
  | spaced v => [v]
  | items vs => vs
  | members ms => ms.map (·.2)

/-- The value of a hole is a part of what the text denotes. -/
theorem Written.part_of_hole (written : Written numberText holes node symbols) {h : H} (mem : .inr h ∈ symbols) :
    ∃ k, ∃ v ∈ node.values, PartAt k (holes h) v := by
  induction written with
  | null | true | false | number | string | noItems | noMembers => simp [chars] at mem
  | hole h' =>
    obtain rfl : h = h' := by simpa using mem
    exact ⟨0, _, List.mem_singleton_self _, .whole _⟩
  | array items ih =>
    obtain ⟨k, v, among, part⟩ := ih (by simpa using mem)
    exact ⟨k + 1, _, List.mem_singleton_self _, .item among part⟩
  | object members ih =>
    obtain ⟨k, v, among, part⟩ := ih (by simpa using mem)
    obtain ⟨m, here, rfl⟩ := List.mem_map.mp among
    exact ⟨k + 1, _, List.mem_singleton_self _, .member here part⟩
  | spaced before value after ih => exact ih (by simpa [chars] using mem)
  | lastItem item ih => exact ih mem
  | item item others ih ih' =>
    rcases List.mem_append.mp mem with mem | mem
    · obtain ⟨k, v, among, part⟩ := ih mem
      exact ⟨k, v, by simpa [Node.values] using .inl (List.mem_singleton.mp among), part⟩
    · obtain ⟨k, v, among, part⟩ := ih' (by simpa using mem)
      exact ⟨k, v, List.mem_cons_of_mem _ among, part⟩
  | lastMember nameText value ih =>
    obtain ⟨k, v, among, part⟩ := ih (by simpa [chars] using mem)
    exact ⟨k, v, by simpa [Node.values] using List.mem_singleton.mp among, part⟩
  | member nameText value others ih ih' =>
    rcases List.mem_append.mp mem with mem | mem
    · obtain ⟨k, v, among, part⟩ := ih (by simpa [chars] using mem)
      exact ⟨k, v, by simpa [Node.values] using .inl (List.mem_singleton.mp among), part⟩
    · obtain ⟨k, v, among, part⟩ := ih' (by simpa using mem)
      exact ⟨k, v, List.mem_cons_of_mem _ among, part⟩

/-- An escape has two characters at least. -/
theorem Escape.two_le {e : List Char} {c : Char} (escape : Escape e c) : 2 ≤ e.length := by
  cases escape with
  | short => rfl
  | unicode digits c four => simp [four]
  | surrogates => simp

/-- A string is not longer than what stands for it. -/
theorem StringBody.length_le {s body : List Char} (string : StringBody s body) : s.length ≤ body.length := by
  induction string with
  | nil => rfl
  | plain _ _ _ ih => simpa using ih
  | escape escape _ ih =>
    have two := escape.two_le
    rw [List.length_append, List.length_cons]
    omega

/-- A string without quotes and backslashes stands for itself. -/
theorem stringBody_self {s : List Char} (noQuote : '\"' ∉ s) (noEscape : '\\' ∉ s) : StringBody s s := by
  induction s with
  | nil => exact .nil
  | cons c rest ih =>
    rw [List.mem_cons, not_or] at noQuote noEscape
    exact .plain (Ne.symm noQuote.1) (Ne.symm noEscape.1) (ih noQuote.2 noEscape.2)

/-- A string is shorter than what it is written with. -/
theorem Written.length_lt {s : List Char} {symbols : List (Symbol Empty)}
    (written : Written numberText Empty.elim node symbols) (string : node = .value (.string s) ∨ node = .spaced (.string s)) :
    s.length < symbols.length := by
  induction written with
  | string body =>
    obtain string | string := string <;> cases string
    have le := body.length_le
    simp only [chars, quoted, List.length_map, List.length_append, List.length_cons]
    omega
  | hole h => exact h.elim
  | spaced before value after ih =>
    obtain string | string := string <;> cases string
    have inner := ih (.inl rfl)
    simp only [List.length_append]
    omega
  | null | true | false | number | array | object | noItems | lastItem | item | noMembers | lastMember | member =>
    obtain string | string := string <;> cases string

/-- A string is shorter than its texts. -/
theorem TextOf.length_lt {s text : List Char} (written : TextOf numberText (.string s) text) : s.length < text.length := by
  have lt := Written.length_lt written (.inr rfl)
  rwa [chars, List.length_map] at lt

/-- A text of a value is not made of white space, or of whatever numbers and the marks of JSON are not made of. -/
theorem Written.visible {P : Char → Prop} (numbers : ∀ n text, numberText n text → ∃ c ∈ text, P c)
    (marks : ∀ c ∈ ['n', 't', 'f', '\"', '[', '{'], P c) (written : Written numberText holes node symbols) {v : Json N}
    (value : node = .value v ∨ node = .spaced v) : ∃ x ∈ symbols, ∀ c, x = .inl c → P c := by
  have starts {c : Char} (mark : c ∈ ['n', 't', 'f', '\"', '[', '{']) (rest : List (Symbol H)) :
      ∃ x ∈ (.inl c :: rest : List (Symbol H)), ∀ c, x = .inl c → P c :=
    ⟨.inl c, List.mem_cons_self, fun d eq => Sum.inl.inj eq ▸ marks c mark⟩
  induction written with
  | null => exact starts (c := 'n') (by simp) _
  | true => exact starts (c := 't') (by simp) _
  | false => exact starts (c := 'f') (by simp) _
  | string => exact starts (c := '\"') (by simp) _
  | array => exact starts (c := '[') (by simp) _
  | object => exact starts (c := '{') (by simp) _
  | number number =>
    obtain ⟨c, mem, visible⟩ := numbers _ _ number
    exact ⟨.inl c, List.mem_map_of_mem mem, fun d eq => Sum.inl.inj eq ▸ visible⟩
  | hole h => exact ⟨.inr h, List.mem_singleton_self _, fun d eq => by cases eq⟩
  | spaced before inner after ih =>
    obtain value | value := value <;> cases value
    obtain ⟨x, mem, visible⟩ := ih (.inl rfl)
    exact ⟨x, List.mem_append_left _ (List.mem_append_right _ mem), visible⟩
  | noItems | lastItem | item | noMembers | lastMember | member => obtain value | value := value <;> cases value

/-- The brackets around the text of a container. -/
theorem Written.brackets {v : Json N} {text : List Char}
    (written : Written numberText Empty.elim (.value v) (chars text)) (container : v.IsContainer) :
    ∃ first inner last, text = first :: inner ++ [last] ∧ (first, last) ∈ [('[', ']'), ('{', '}')] := by
  generalize nodeEq : Node.value v = node at written
  generalize textEq : (chars text : List (Symbol Empty)) = symbols at written
  have inner {first last : Char} {inside : List (Symbol Empty)}
      (eq : (chars text : List (Symbol Empty)) = .inl first :: inside ++ [.inl last]) :
      ∃ inner, text = first :: inner ++ [last] := by
    obtain ⟨front, back, rfl, frontEq, backEq⟩ := List.map_eq_append_iff.mp eq
    obtain ⟨c, rest, rfl, first', -⟩ := List.map_eq_cons_iff.mp frontEq
    obtain ⟨d, rest', rfl, last', nothing⟩ := List.map_eq_cons_iff.mp backEq
    obtain rfl := Sum.inl.inj first'
    obtain rfl := Sum.inl.inj last'
    obtain rfl := List.map_eq_nil_iff.mp nothing
    exact ⟨rest, rfl⟩
  cases written with
  | array =>
    obtain ⟨rest, eq⟩ := inner textEq
    exact ⟨_, rest, _, eq, by simp⟩
  | object =>
    obtain ⟨rest, eq⟩ := inner textEq
    exact ⟨_, rest, _, eq, by simp⟩
  | hole h => exact h.elim
  | null | true | false | number | string => cases nodeEq; cases container
  | spaced | noItems | lastItem | item | noMembers | lastMember | member => cases nodeEq

/-! ## What stands beside a hole -/

/-- No quote, and no hole. -/
def Neutral (x : Symbol H) : Prop := ∃ c : Char, x = .inl c ∧ c ≠ '\"'

/-- Of two neighbours, what stands beside a hole is neutral. -/
def Apart (x y : Symbol H) : Prop := (x.isRight → Neutral y) ∧ (y.isRight → Neutral x)

theorem Neutral.before {x : Symbol H} (neutral : Neutral x) (y : Symbol H) : Apart x y := by
  obtain ⟨c, rfl, notQuote⟩ := neutral
  exact ⟨fun hole => (by cases hole), fun _ => ⟨c, rfl, notQuote⟩⟩

theorem Neutral.after {y : Symbol H} (neutral : Neutral y) (x : Symbol H) : Apart x y := by
  obtain ⟨c, rfl, notQuote⟩ := neutral
  exact ⟨fun _ => ⟨c, rfl, notQuote⟩, fun hole => (by cases hole)⟩

theorem isChain_cons_neutral {c : Char} (notQuote : c ≠ '\"') (rest : symbols.IsChain Apart) :
    (.inl c :: symbols : List (Symbol H)).IsChain Apart :=
  List.isChain_cons.mpr ⟨fun y _ => Neutral.before ⟨c, rfl, notQuote⟩ y, rest⟩

theorem isChain_chars (text : List Char) : (chars text : List (Symbol H)).IsChain Apart := by
  induction text with
  | nil => exact .nil
  | cons c rest ih =>
    refine List.isChain_cons.mpr ⟨fun y mem => ?_, ih⟩
    obtain ⟨d, -, rfl⟩ := List.mem_map.mp (List.mem_of_mem_head? mem)
    exact ⟨fun hole => (by cases hole), fun hole => (by cases hole)⟩

/-- Two texts with a neutral character between them. -/
theorem isChain_between {before after : List (Symbol H)} {c : Char} (notQuote : c ≠ '\"') (first : before.IsChain Apart)
    (last : after.IsChain Apart) : (before ++ .inl c :: after).IsChain Apart := by
  refine List.isChain_append.mpr ⟨first, isChain_cons_neutral notQuote last, fun x _ y mem => ?_⟩
  obtain rfl : .inl c = y := Option.some.inj mem
  exact Neutral.after ⟨c, rfl, notQuote⟩ x

/-- White space has no quotes. -/
theorem Blank.notQuote {b : List Char} (blank : Blank b) : '\"' ∉ b := fun mem => by
  rcases blank _ mem with eq | eq | eq | eq <;> cases eq

/-- White space before and after a text. -/
theorem isChain_spaced {text : List (Symbol H)} {b b' : List Char} (before : '\"' ∉ b) (inner : text.IsChain Apart)
    (after : '\"' ∉ b') : (chars b ++ text ++ chars b').IsChain Apart := by
  have front : (chars b ++ text).IsChain Apart := by
    induction b with
    | nil => exact inner
    | cons c rest ih =>
      rw [List.mem_cons, not_or] at before
      exact isChain_cons_neutral (Ne.symm before.1) (ih before.2)
  cases b' with
  | nil => rwa [chars_nil, List.append_nil]
  | cons c rest =>
    rw [List.mem_cons, not_or] at after
    exact isChain_between (Ne.symm after.1) front (isChain_chars rest)

/-- **Beside a hole there is neither a quote nor another hole.** -/
theorem Written.apart (written : Written numberText holes node symbols) : symbols.IsChain Apart := by
  induction written with
  | null | true | false | number | string | noItems | noMembers => exact isChain_chars _
  | hole h => exact .singleton _
  | array items ih => exact isChain_between (by decide) (isChain_cons_neutral (by decide) ih) .nil
  | object members ih => exact isChain_between (by decide) (isChain_cons_neutral (by decide) ih) .nil
  | spaced before value after ih => exact isChain_spaced before.notQuote ih after.notQuote
  | lastItem item ih => exact ih
  | item item others ih ih' => exact isChain_between (by decide) ih ih'
  | lastMember nameText value ih => exact isChain_between (by decide) (isChain_chars _) ih
  | member nameText value others ih ih' =>
    exact isChain_between (by decide) (isChain_between (by decide) (isChain_chars _) ih) ih'

end

end Json

end FaasNet.Lib
