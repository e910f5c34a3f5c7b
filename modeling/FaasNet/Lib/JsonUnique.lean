import FaasNet.Lib.JsonText

/-!
# A JSON text is of one value

Whatever stands behind a text and cannot belong to it, the text and its value can be told from the two together. Of the
texts of numbers it is only used that they are of one number each, and of characters that mean nothing else in JSON.
-/

namespace FaasNet.Lib.Json

section
variable {N H : Type*}

/-! ## Marks -/

/-- What may stand behind a value and the white space around it. -/
def IsClosing (c : Char) : Prop := c = ',' ∨ c = ']' ∨ c = '}'

/-- A character that is in no text of a number. -/
def IsReserved (c : Char) : Prop := IsBlank c ∨ IsClosing c ∨ c ∈ ['n', 't', 'f', '\"', '[', '{']

/-- What the texts of numbers are made of. -/
structure LawfulNumbers (numberText : N → List Char → Prop) : Prop where
  unique : ∀ n n' text, numberText n text → numberText n' text → n = n'
  nonempty : ∀ n text, numberText n text → text ≠ []
  unreserved : ∀ n text, numberText n text → ∀ c ∈ text, ¬ IsReserved c

/-- A symbol that is a character of a kind. -/
def Symbol.Is (P : Char → Prop) (x : Symbol H) : Prop := ∃ c, x = .inl c ∧ P c

/-- What may stand behind a text. -/
def Node.Before : Node N → List (Symbol H) → Prop
  | value _, rest => ∀ x ∈ rest.head?, Symbol.Is (fun c => IsBlank c ∨ IsClosing c) x
  | spaced _, rest => ∀ x ∈ rest.head?, Symbol.Is IsClosing x
  | items _, rest => rest.head? = some (.inl ']')
  | members _, rest => rest.head? = some (.inl '}')

/-- Texts of the same kind. -/
def Node.Alike : Node N → Node N → Prop
  | value _, value _ => True
  | spaced _, spaced _ => True
  | items _, items _ => True
  | members _, members _ => True
  | _, _ => False

theorem not_isBlank_of_isClosing {c : Char} (closing : IsClosing c) : ¬ IsBlank c := by
  rcases closing with rfl | rfl | rfl <;> simp [IsBlank]

@[simp] theorem is_inl {P : Char → Prop} {c : Char} : Symbol.Is P (.inl c : Symbol H) ↔ P c :=
  ⟨fun ⟨_, eq, holds⟩ => Sum.inl.inj eq ▸ holds, fun holds => ⟨c, rfl, holds⟩⟩

/-- The symbols of a text are characters of its kind. -/
theorem is_of_mem_chars {P : Char → Prop} {text : List Char} (all : ∀ c ∈ text, P c) :
    ∀ x ∈ (chars text : List (Symbol H)), Symbol.Is P x := by
  intro x mem
  obtain ⟨c, here, rfl⟩ := List.mem_map.mp mem
  exact ⟨c, rfl, all c here⟩

theorem chars_injective : Function.Injective (chars : List Char → List (Symbol H)) :=
  List.map_injective_iff.mpr Sum.inl_injective

/-- What has a property to the end is told from what does not begin with it. -/
theorem split_unique {α : Type*} {P : α → Prop} {front front' back back' : List α} (eq : front ++ back = front' ++ back')
    (inside : ∀ x ∈ front, P x) (inside' : ∀ x ∈ front', P x) (behind : ∀ x ∈ back.head?, ¬ P x)
    (behind' : ∀ x ∈ back'.head?, ¬ P x) : front = front' ∧ back = back' := by
  obtain ⟨between, rfl, rfl⟩ | ⟨between, rfl, rfl⟩ := List.append_eq_append_iff.mp eq
  · cases between with
    | nil => simp
    | cons x rest => exact absurd (inside' x (by simp)) (behind x (by simp))
  · cases between with
    | nil => simp
    | cons x rest => exact absurd (inside x (by simp)) (behind' x (by simp))

/-- White space is told from what does not begin with it. -/
theorem blank_unique {b b' : List Char} {rest rest' : List (Symbol H)} (blank : Blank b) (blank' : Blank b')
    (eq : chars b ++ rest = chars b' ++ rest') (behind : ∀ x ∈ rest.head?, ¬ Symbol.Is IsBlank x)
    (behind' : ∀ x ∈ rest'.head?, ¬ Symbol.Is IsBlank x) : b = b' ∧ rest = rest' := by
  obtain ⟨same, rest⟩ := split_unique eq (is_of_mem_chars blank) (is_of_mem_chars blank') behind behind'
  exact ⟨chars_injective same, rest⟩

/-! ## Strings -/

/-- Each short escape stands for one character. -/
theorem short_unique : ∀ p ∈ [('\"', '\"'), ('\\', '\\'), ('/', '/'), ('b', '\x08'), ('f', '\x0c'), ('n', '\n'),
    ('r', '\r'), ('t', '\t')], ∀ q ∈ [('\"', '\"'), ('\\', '\\'), ('/', '/'), ('b', '\x08'), ('f', '\x0c'), ('n', '\n'),
    ('r', '\r'), ('t', '\t')], p.1 = q.1 → p.2 = q.2 := by
  decide

/-- No character is a surrogate. -/
theorem toNat_ne_surrogate (c : Char) {h : Nat} (small : h < 0x400) : c.toNat ≠ 0xD800 + h := by
  have valid : c.toNat < 0xD800 ∨ 0xDFFF < c.toNat ∧ c.toNat < 0x110000 := c.valid
  omega

/-- Four digits are told by their number. -/
theorem digits_unique {digits digits' : List Char} {rest rest' : List (Symbol H)} (four : digits.length = 4)
    (four' : digits'.length = 4) (eq : chars digits ++ rest = chars digits' ++ rest') : digits = digits' ∧ rest = rest' := by
  have long : (chars digits : List (Symbol H)).length = (chars digits' : List (Symbol H)).length := by
    simp [chars, four, four']
  obtain ⟨same, rest⟩ := List.append_inj eq long
  exact ⟨chars_injective same, rest⟩

/-- An escape is told from what stands behind it. -/
theorem Escape.unique {e e' : List Char} {c c' : Char} {rest rest' : List (Symbol H)} (escape : Escape e c)
    (escape' : Escape e' c') (eq : chars e ++ rest = chars e' ++ rest') : e = e' ∧ c = c' ∧ rest = rest' := by
  cases escape with
  | short k _ named =>
    cases escape' with
    | short k' _ named' =>
      simp only [chars_cons, chars_nil, List.cons_append, List.nil_append, List.cons.injEq, true_and, Sum.inl.injEq] at eq
      obtain ⟨rfl, rfl⟩ := eq
      exact ⟨rfl, short_unique _ named _ named' rfl, rfl⟩
    | unicode => simp at eq; simp [eq.1] at named
    | surrogates => simp at eq; simp [eq.1] at named
  | unicode digits _ four value =>
    cases escape' with
    | short k' _ named' => simp at eq; simp [← eq.1] at named'
    | unicode digits' _ four' value' =>
      obtain ⟨rfl, rfl⟩ := digits_unique four four' (by simpa using eq)
      rw [value] at value'
      exact ⟨rfl, Char.toNat_inj.mp (Option.some.inj value'), rfl⟩
    | surrogates high low h l _ four' values small =>
      obtain ⟨rfl, -⟩ := digits_unique four four'.1 (by simpa using eq)
      rw [value] at values
      exact absurd (Option.some.inj values.1) (toNat_ne_surrogate c small.1)
  | surrogates high low h l _ four values small value =>
    cases escape' with
    | short k' _ named' => simp at eq; simp [← eq.1] at named'
    | unicode digits' _ four' value' =>
      obtain ⟨rfl, -⟩ := digits_unique four.1 four' (by simpa using eq)
      rw [value'] at values
      exact absurd (Option.some.inj values.1) (toNat_ne_surrogate c' small.1)
    | surrogates high' low' h' l' _ four' values' small' value' =>
      obtain ⟨rfl, behind⟩ := digits_unique four.1 four'.1 (by simpa using eq)
      obtain ⟨rfl, rfl⟩ := digits_unique four.2 four'.2 (by simpa using behind)
      have sameHigh : 0xD800 + h = 0xD800 + h' := Option.some.inj (values.1.symm.trans values'.1)
      have sameLow : 0xDC00 + l = 0xDC00 + l' := Option.some.inj (values.2.symm.trans values'.2)
      exact ⟨rfl, Char.toNat_inj.mp (by omega), rfl⟩

/-- A string is told by the quote behind it. -/
theorem StringBody.unique {s s' body body' : List Char} {rest rest' : List (Symbol H)} (string : StringBody s body)
    (string' : StringBody s' body') (eq : chars body ++ .inl '\"' :: rest = chars body' ++ .inl '\"' :: rest') :
    s = s' ∧ body = body' ∧ rest = rest' := by
  induction string generalizing s' body' with
  | nil =>
    cases string' with
    | nil => exact ⟨rfl, rfl, by simpa using eq⟩
    | plain notQuote => simp [Ne.symm notQuote] at eq
    | escape escape => cases escape <;> simp at eq
  | plain notQuote notEscape _ ih =>
    cases string' with
    | nil => simp [notQuote] at eq
    | plain _ _ others =>
      simp only [chars_cons, List.cons_append, List.cons.injEq, Sum.inl.injEq] at eq
      obtain ⟨rfl, rfl, rfl⟩ := ih others eq.2
      exact ⟨by rw [eq.1], by rw [eq.1], rfl⟩
    | escape escape => cases escape <;> simp [notEscape] at eq
  | escape escape _ ih =>
    cases string' with
    | nil => cases escape <;> simp at eq
    | plain _ notEscape => cases escape <;> simp [Ne.symm notEscape] at eq
    | escape escape' others =>
      simp only [chars_append, List.append_assoc] at eq
      obtain ⟨rfl, rfl, behind⟩ := escape.unique escape' eq
      obtain ⟨rfl, rfl, rfl⟩ := ih others behind
      exact ⟨rfl, rfl, rfl⟩

theorem quoted_injective : Function.Injective quoted := fun _ _ eq =>
  (List.append_inj' (List.cons.inj eq).2 rfl).1

/-- A quoted string is told by its quotes. -/
theorem quoted_unique {s s' body body' : List Char} {rest rest' : List (Symbol H)} (string : StringBody s body)
    (string' : StringBody s' body') (eq : chars (quoted body) ++ rest = chars (quoted body') ++ rest') :
    s = s' ∧ body = body' ∧ rest = rest' :=
  string.unique string' (by simpa [quoted] using eq)

/-- A name is told by the colon behind it. -/
theorem NameText.unique {name name' key key' : List Char} {rest rest' : List (Symbol H)} (text : NameText name key)
    (text' : NameText name' key') (eq : chars key ++ .inl ':' :: rest = chars key' ++ .inl ':' :: rest') :
    name = name' ∧ key = key' ∧ rest = rest' := by
  obtain ⟨b, body, after, before, string, behind, rfl⟩ := text
  obtain ⟨b', body', after', before', string', behind', rfl⟩ := text'
  simp only [chars_append, List.append_assoc] at eq
  obtain ⟨rfl, inside⟩ := blank_unique before before' eq (by simp [quoted, IsBlank]) (by simp [quoted, IsBlank])
  obtain ⟨rfl, rfl, ends⟩ := quoted_unique string string' inside
  obtain ⟨rfl, colon⟩ := blank_unique behind behind' ends (by simp [IsBlank]) (by simp [IsBlank])
  exact ⟨rfl, rfl, (List.cons.inj colon).2⟩

/-! ## Values -/

variable {numberText : N → List Char → Prop} {holes : H → Json N}

/-- A symbol with which a value begins. -/
def Opens (x : Symbol H) : Prop := ¬ Symbol.Is (fun c => IsBlank c ∨ IsClosing c) x

/-- A value begins with neither white space nor a closing mark. -/
theorem Written.opens {v : Json N} {text : List (Symbol H)} (numbers : LawfulNumbers numberText)
    (written : Written numberText holes (.value v) text) : ∃ x inner, text = x :: inner ∧ Opens x := by
  generalize node : Node.value v = n at written
  cases written with
  | null | true | false | string | array | object => exact ⟨_, _, rfl, by simp [Opens, IsBlank, IsClosing]⟩
  | @number n text number =>
    cases text with
    | nil => exact absurd rfl (numbers.nonempty _ _ number)
    | cons c rest =>
      have unreserved := numbers.unreserved _ _ number c List.mem_cons_self
      exact ⟨.inl c, chars rest, rfl, fun blank => unreserved ((is_inl.mp blank).imp_right .inl)⟩
  | hole h => exact ⟨_, _, rfl, fun ⟨c, eq, _⟩ => by cases eq⟩
  | spaced | noItems | lastItem | item | noMembers | lastMember | member => cases node

/-- A number does not begin as another value does. -/
theorem number_ne {n : N} {c : Char} {text : List Char} {rest rest' : List (Symbol H)} (numbers : LawfulNumbers numberText)
    (number : numberText n text) (mark : c ∈ ['n', 't', 'f', '\"', '[', '{']) :
    chars text ++ rest ≠ .inl c :: rest' := by
  cases text with
  | nil => exact absurd rfl (numbers.nonempty _ _ number)
  | cons d text =>
    intro eq
    obtain rfl : d = c := Sum.inl.inj (List.cons.inj eq).1
    exact numbers.unreserved _ _ number d List.mem_cons_self (.inr (.inr mark))

theorem number_ne_hole {n : N} {h : H} {text : List Char} {rest rest' : List (Symbol H)}
    (numbers : LawfulNumbers numberText) (number : numberText n text) : chars text ++ rest ≠ .inr h :: rest' := by
  cases text with
  | nil => exact absurd rfl (numbers.nonempty _ _ number)
  | cons d text => exact fun eq => by cases (List.cons.inj eq).1

/-- A number is told by what stands behind it. -/
theorem number_unique {n n' : N} {text text' : List Char} {rest rest' : List (Symbol H)}
    (numbers : LawfulNumbers numberText) (number : numberText n text) (number' : numberText n' text')
    (eq : chars text ++ rest = chars text' ++ rest') (behind : (Node.value (.number n)).Before rest)
    (behind' : (Node.value (.number n')).Before rest') : n = n' ∧ text = text' ∧ rest = rest' := by
  have apart {rest : List (Symbol H)} (behind : (Node.value (.number n)).Before rest) :
      ∀ x ∈ rest.head?, ¬ Symbol.Is (fun c => ¬ IsReserved c) x := by
    rintro x mem ⟨c, rfl, unreserved⟩
    exact unreserved ((is_inl.mp (behind _ mem)).imp_right .inl)
  obtain ⟨same, ends⟩ := split_unique eq (is_of_mem_chars (numbers.unreserved n text number))
    (is_of_mem_chars (numbers.unreserved n' text' number')) (apart behind) (apart behind')
  obtain rfl := chars_injective same
  exact ⟨numbers.unique n n' text number number', rfl, ends⟩

/-! ## What stands behind -/

theorem closing_items {vs : List (Json N)} {rest : List (Symbol H)} (before : (Node.items vs).Before rest) :
    ∀ x ∈ rest.head?, Symbol.Is IsClosing x := by
  intro x mem
  obtain rfl : .inl ']' = x := Option.some.inj (before.symm.trans mem)
  exact is_inl.mpr (.inr (.inl rfl))

theorem closing_members {ms : List (List Char × Json N)} {rest : List (Symbol H)} (before : (Node.members ms).Before rest) :
    ∀ x ∈ rest.head?, Symbol.Is IsClosing x := by
  intro x mem
  obtain rfl : .inl '}' = x := Option.some.inj (before.symm.trans mem)
  exact is_inl.mpr (.inr (.inr rfl))

theorem closing_comma {rest : List (Symbol H)} : ∀ x ∈ (.inl ',' :: rest : List (Symbol H)).head?, Symbol.Is IsClosing x := by
  intro x mem
  obtain rfl : .inl ',' = x := Option.some.inj mem
  exact is_inl.mpr (.inl rfl)

theorem not_blank_of_closing {rest : List (Symbol H)} (closing : ∀ x ∈ rest.head?, Symbol.Is IsClosing x) :
    ∀ x ∈ rest.head?, ¬ Symbol.Is IsBlank x := by
  rintro x mem ⟨c, rfl, blank⟩
  exact not_isBlank_of_isClosing (is_inl.mp (closing _ mem)) blank

/-- White space may stand behind a value. -/
theorem before_blank {v : Json N} {b : List Char} {rest : List (Symbol H)} (blank : Blank b)
    (closing : ∀ x ∈ rest.head?, Symbol.Is IsClosing x) : (Node.value v).Before (chars b ++ rest) := by
  intro x mem
  cases b with
  | nil => exact (closing x mem).imp fun c both => ⟨both.1, .inr both.2⟩
  | cons c b =>
    obtain rfl : .inl c = x := Option.some.inj mem
    exact is_inl.mpr (.inl (blank c List.mem_cons_self))

/-- A value does not begin with white space. -/
theorem Written.not_blank {v : Json N} {text : List (Symbol H)} (numbers : LawfulNumbers numberText)
    (written : Written numberText holes (.value v) text) (rest : List (Symbol H)) :
    ∀ x ∈ (text ++ rest).head?, ¬ Symbol.Is IsBlank x := by
  obtain ⟨x, inner, rfl, opens⟩ := written.opens numbers
  intro y mem blank
  obtain rfl : x = y := Option.some.inj mem
  exact opens (blank.imp fun c both => ⟨both.1, .inl both.2⟩)

/-- White space and a closing mark are no name. -/
theorem NameText.ne_blank {name key b : List Char} {rest rest' : List (Symbol H)} (text : NameText name key)
    (blank : Blank b) (closing : ∀ x ∈ rest'.head?, Symbol.Is IsClosing x) : chars key ++ rest ≠ chars b ++ rest' := by
  intro eq
  obtain ⟨b', body, after, before, -, -, rfl⟩ := text
  simp only [chars_append, List.append_assoc] at eq
  obtain ⟨-, rfl⟩ := blank_unique before blank eq (by simp [quoted, IsBlank]) (not_blank_of_closing closing)
  have quote : IsClosing '\"' := is_inl.mp (closing (.inl '\"') rfl)
  simp [IsClosing] at quote

/-- White space and a closing mark are no value. -/
theorem spaced_ne_blank {v : Json N} {text rest rest' : List (Symbol H)} {b : List Char}
    (numbers : LawfulNumbers numberText) (written : Written numberText holes (.spaced v) text) (blank : Blank b)
    (closing : ∀ x ∈ rest'.head?, Symbol.Is IsClosing x) : text ++ rest ≠ chars b ++ rest' := by
  generalize node : Node.spaced v = n at written
  cases written with
  | spaced before value after =>
    intro eq
    simp only [List.append_assoc] at eq
    obtain ⟨-, rfl⟩ := blank_unique before blank eq (value.not_blank numbers _) (not_blank_of_closing closing)
    obtain ⟨x, inner, rfl, opens⟩ := value.opens numbers
    exact opens ((closing x rfl).imp fun c both => ⟨both.1, .inr both.2⟩)
  | null | true | false | number | string | hole | array | object | noItems | lastItem | item | noMembers | lastMember |
    member => cases node

/-! ## What a text is of -/

/-- A text, and what it is of, are told by what stands behind it. -/
def Told (numberText : N → List Char → Prop) (holes : H → Json N) (node : Node N) (text : List (Symbol H)) : Prop :=
  ∀ {node' : Node N} {text' rest rest' : List (Symbol H)}, Written numberText holes node' text' → node.Alike node' →
    node.Before rest → node'.Before rest' → text ++ rest = text' ++ rest' → node = node' ∧ text = text' ∧ rest = rest'

theorem told_null (numbers : LawfulNumbers numberText) :
    Told numberText holes (.value .null) (chars ['n', 'u', 'l', 'l']) := by
  intro node' text' rest rest' written' alike before before' eq
  cases written' with
  | null => exact ⟨rfl, rfl, List.append_cancel_left eq⟩
  | number number => exact absurd eq.symm (number_ne numbers number (by simp))
  | true | false | string | array | object | hole => simp [quoted] at eq
  | spaced | noItems | lastItem | item | noMembers | lastMember | member => cases alike

theorem told_true (numbers : LawfulNumbers numberText) :
    Told numberText holes (.value (.boolean true)) (chars ['t', 'r', 'u', 'e']) := by
  intro node' text' rest rest' written' alike before before' eq
  cases written' with
  | true => exact ⟨rfl, rfl, List.append_cancel_left eq⟩
  | number number => exact absurd eq.symm (number_ne numbers number (by simp))
  | null | false | string | array | object | hole => simp [quoted] at eq
  | spaced | noItems | lastItem | item | noMembers | lastMember | member => cases alike

theorem told_false (numbers : LawfulNumbers numberText) :
    Told numberText holes (.value (.boolean false)) (chars ['f', 'a', 'l', 's', 'e']) := by
  intro node' text' rest rest' written' alike before before' eq
  cases written' with
  | false => exact ⟨rfl, rfl, List.append_cancel_left eq⟩
  | number number => exact absurd eq.symm (number_ne numbers number (by simp))
  | null | true | string | array | object | hole => simp [quoted] at eq
  | spaced | noItems | lastItem | item | noMembers | lastMember | member => cases alike

theorem told_number (numbers : LawfulNumbers numberText) {n : N} {text : List Char} (number : numberText n text) :
    Told numberText holes (.value (.number n)) (chars text) := by
  intro node' text' rest rest' written' alike before before' eq
  cases written' with
  | number number' =>
    obtain ⟨rfl, rfl, ends⟩ := number_unique numbers number number' eq before before'
    exact ⟨rfl, rfl, ends⟩
  | null | true | false | string | array | object => exact absurd eq (number_ne numbers number (by simp))
  | hole => exact absurd eq (number_ne_hole numbers number)
  | spaced | noItems | lastItem | item | noMembers | lastMember | member => cases alike

theorem told_string (numbers : LawfulNumbers numberText) {s body : List Char} (string : StringBody s body) :
    Told numberText holes (.value (.string s)) (chars (quoted body)) := by
  intro node' text' rest rest' written' alike before before' eq
  cases written' with
  | string string' =>
    obtain ⟨rfl, rfl, ends⟩ := quoted_unique string string' eq
    exact ⟨rfl, rfl, ends⟩
  | number number => exact absurd eq.symm (number_ne numbers number (by simp))
  | null | true | false | array | object | hole => simp [quoted] at eq
  | spaced | noItems | lastItem | item | noMembers | lastMember | member => cases alike

theorem told_hole (numbers : LawfulNumbers numberText) (h : H) : Told numberText holes (.value (holes h)) [.inr h] := by
  intro node' text' rest rest' written' alike before before' eq
  cases written' with
  | hole h' =>
    obtain ⟨rfl, ends⟩ : h = h' ∧ rest = rest' := by simpa using eq
    exact ⟨rfl, rfl, ends⟩
  | number number => exact absurd eq.symm (number_ne_hole numbers number)
  | null | true | false | string | array | object => simp [quoted] at eq
  | spaced | noItems | lastItem | item | noMembers | lastMember | member => cases alike

section
variable {text text' rest : List (Symbol H)}

theorem told_array (numbers : LawfulNumbers numberText) {vs : List (Json N)}
    (told : Told numberText holes (.items vs) text) :
    Told numberText holes (.value (.array vs)) (.inl '[' :: text ++ [.inl ']']) := by
  intro node' text' rest rest' written' alike before before' eq
  cases written' with
  | array items' =>
    simp only [List.cons_append, List.append_assoc, List.nil_append, List.cons.injEq, true_and] at eq
    obtain ⟨same, rfl, ends⟩ := told items' trivial (by rfl) (by rfl) eq
    obtain rfl := Node.items.inj same
    exact ⟨rfl, rfl, (List.cons.inj ends).2⟩
  | number number => exact absurd eq.symm (number_ne numbers number (by simp))
  | null | true | false | string | object | hole => simp [quoted] at eq
  | spaced | noItems | lastItem | item | noMembers | lastMember | member => cases alike

theorem told_object (numbers : LawfulNumbers numberText) {ms : List (List Char × Json N)}
    (told : Told numberText holes (.members ms) text) :
    Told numberText holes (.value (.object ms)) (.inl '{' :: text ++ [.inl '}']) := by
  intro node' text' rest rest' written' alike before before' eq
  cases written' with
  | object members' =>
    simp only [List.cons_append, List.append_assoc, List.nil_append, List.cons.injEq, true_and] at eq
    obtain ⟨same, rfl, ends⟩ := told members' trivial (by rfl) (by rfl) eq
    obtain rfl := Node.members.inj same
    exact ⟨rfl, rfl, (List.cons.inj ends).2⟩
  | number number => exact absurd eq.symm (number_ne numbers number (by simp))
  | null | true | false | string | array | hole => simp [quoted] at eq
  | spaced | noItems | lastItem | item | noMembers | lastMember | member => cases alike

/-- With white space around it. -/
theorem told_spaced (numbers : LawfulNumbers numberText) {v : Json N} {b b' : List Char} (white : Blank b)
    (value : Written numberText holes (.value v) text) (white' : Blank b') (told : Told numberText holes (.value v) text) :
    Told numberText holes (.spaced v) (chars b ++ text ++ chars b') := by
  intro node' text' rest rest' written' alike before before' eq
  cases written' with
  | spaced blank value' blank' =>
    simp only [List.append_assoc] at eq
    obtain ⟨rfl, inside⟩ := blank_unique white blank eq (value.not_blank numbers _) (value'.not_blank numbers _)
    obtain ⟨same, rfl, behind⟩ := told value' trivial (before_blank white' before) (before_blank blank' before') inside
    obtain rfl := Node.value.inj same
    obtain ⟨rfl, ends⟩ := blank_unique white' blank' behind (not_blank_of_closing before) (not_blank_of_closing before')
    exact ⟨rfl, rfl, ends⟩
  | null | true | false | number | string | hole | array | object | noItems | lastItem | item | noMembers | lastMember |
    member => cases alike

theorem told_noItems (numbers : LawfulNumbers numberText) {b : List Char} (blank : Blank b) :
    Told numberText holes (.items []) (chars b) := by
  intro node' text' rest rest' written' alike before before' eq
  cases written' with
  | noItems blank' =>
    obtain ⟨rfl, ends⟩ := blank_unique blank blank' eq (not_blank_of_closing (closing_items before))
      (not_blank_of_closing (closing_items before'))
    exact ⟨rfl, rfl, ends⟩
  | lastItem item => exact absurd eq.symm (spaced_ne_blank numbers item blank (closing_items before))
  | item item =>
    rw [List.append_assoc] at eq
    exact absurd eq.symm (spaced_ne_blank numbers item blank (closing_items before))
  | null | true | false | number | string | hole | array | object | spaced | noMembers | lastMember | member => cases alike

theorem told_lastItem (numbers : LawfulNumbers numberText) {v : Json N} (item : Written numberText holes (.spaced v) text)
    (told : Told numberText holes (.spaced v) text) : Told numberText holes (.items [v]) text := by
  intro node' text' rest rest' written' alike before before' eq
  cases written' with
  | noItems blank => exact absurd eq (spaced_ne_blank numbers item blank (closing_items before'))
  | lastItem item' =>
    obtain ⟨same, rfl, ends⟩ := told item' trivial (closing_items before) (closing_items before') eq
    obtain rfl := Node.spaced.inj same
    exact ⟨rfl, rfl, ends⟩
  | item item' =>
    rw [List.append_assoc] at eq
    obtain ⟨-, -, rfl⟩ := told item' trivial (closing_items before) closing_comma eq
    cases before
  | null | true | false | number | string | hole | array | object | spaced | noMembers | lastMember | member => cases alike

theorem told_item (numbers : LawfulNumbers numberText) {v w : Json N} {vs : List (Json N)}
    (item : Written numberText holes (.spaced v) text) (told : Told numberText holes (.spaced v) text)
    (others : Told numberText holes (.items (w :: vs)) text') :
    Told numberText holes (.items (v :: w :: vs)) (text ++ .inl ',' :: text') := by
  intro node' text' rest rest' written' alike before before' eq
  rw [List.append_assoc] at eq
  cases written' with
  | noItems blank => exact absurd eq (spaced_ne_blank numbers item blank (closing_items before'))
  | lastItem item' =>
    obtain ⟨-, -, rfl⟩ := told item' trivial closing_comma (closing_items before') eq
    cases before'
  | item item' others' =>
    rw [List.append_assoc] at eq
    obtain ⟨same, rfl, behind⟩ := told item' trivial closing_comma closing_comma eq
    obtain rfl := Node.spaced.inj same
    obtain ⟨same', rfl, ends⟩ := others others' trivial before before' (List.cons.inj behind).2
    obtain ⟨rfl, rfl⟩ := List.cons.inj (Node.items.inj same')
    exact ⟨rfl, rfl, ends⟩
  | null | true | false | number | string | hole | array | object | spaced | noMembers | lastMember | member => cases alike

theorem told_noMembers {b : List Char} (blank : Blank b) : Told numberText holes (.members []) (chars b) := by
  intro node' text' rest rest' written' alike before before' eq
  cases written' with
  | noMembers blank' =>
    obtain ⟨rfl, ends⟩ := blank_unique blank blank' eq (not_blank_of_closing (closing_members before))
      (not_blank_of_closing (closing_members before'))
    exact ⟨rfl, rfl, ends⟩
  | lastMember nameText | member nameText =>
    simp only [List.append_assoc] at eq
    exact absurd eq.symm (nameText.ne_blank blank (closing_members before))
  | null | true | false | number | string | hole | array | object | spaced | noItems | lastItem | item => cases alike

theorem told_lastMember {name key : List Char} {v : Json N} (nameText : NameText name key)
    (told : Told numberText holes (.spaced v) text) :
    Told numberText holes (.members [(name, v)]) (chars key ++ .inl ':' :: text) := by
  intro node' text' rest rest' written' alike before before' eq
  simp only [List.append_assoc] at eq
  cases written' with
  | noMembers blank => exact absurd eq (nameText.ne_blank blank (closing_members before'))
  | lastMember nameText' value' =>
    simp only [List.append_assoc] at eq
    obtain ⟨rfl, rfl, behind⟩ := nameText.unique nameText' eq
    obtain ⟨same, rfl, ends⟩ := told value' trivial (closing_members before) (closing_members before') behind
    obtain rfl := Node.spaced.inj same
    exact ⟨rfl, rfl, ends⟩
  | member nameText' value' =>
    simp only [List.append_assoc] at eq
    obtain ⟨rfl, rfl, behind⟩ := nameText.unique nameText' eq
    obtain ⟨-, -, rfl⟩ := told value' trivial (closing_members before) closing_comma behind
    cases before
  | null | true | false | number | string | hole | array | object | spaced | noItems | lastItem | item => cases alike

theorem told_member {name key : List Char} {v : Json N} {m : List Char × Json N} {ms : List (List Char × Json N)}
    (nameText : NameText name key) (told : Told numberText holes (.spaced v) text)
    (others : Told numberText holes (.members (m :: ms)) text') :
    Told numberText holes (.members ((name, v) :: m :: ms)) (chars key ++ .inl ':' :: text ++ .inl ',' :: text') := by
  intro node' text' rest rest' written' alike before before' eq
  simp only [List.append_assoc] at eq
  cases written' with
  | noMembers blank => exact absurd eq (nameText.ne_blank blank (closing_members before'))
  | lastMember nameText' value' =>
    simp only [List.append_assoc] at eq
    obtain ⟨rfl, rfl, behind⟩ := nameText.unique nameText' eq
    obtain ⟨-, -, rfl⟩ := told value' trivial closing_comma (closing_members before') behind
    cases before'
  | member nameText' value' others' =>
    simp only [List.append_assoc] at eq
    obtain ⟨rfl, rfl, behind⟩ := nameText.unique nameText' eq
    obtain ⟨same, rfl, comma⟩ := told value' trivial closing_comma closing_comma behind
    obtain rfl := Node.spaced.inj same
    obtain ⟨same', rfl, ends⟩ := others others' trivial before before' (List.cons.inj comma).2
    obtain ⟨rfl, rfl⟩ := List.cons.inj (Node.members.inj same')
    exact ⟨rfl, rfl, ends⟩
  | null | true | false | number | string | hole | array | object | spaced | noItems | lastItem | item => cases alike

/-- Every text tells what it is of. -/
theorem Written.told {node : Node N} (numbers : LawfulNumbers numberText) (written : Written numberText holes node text) :
    Told numberText holes node text := by
  induction written with
  | null => exact told_null numbers
  | true => exact told_true numbers
  | false => exact told_false numbers
  | number number => exact told_number numbers number
  | string string => exact told_string numbers string
  | hole h => exact told_hole numbers h
  | array _ ih => exact told_array numbers ih
  | object _ ih => exact told_object numbers ih
  | spaced white value white' ih => exact told_spaced numbers white value white' ih
  | noItems blank => exact told_noItems numbers blank
  | lastItem item ih => exact told_lastItem numbers item ih
  | item item _ ih ih' => exact told_item numbers item ih ih'
  | noMembers blank => exact told_noMembers blank
  | lastMember nameText _ ih => exact told_lastMember nameText ih
  | member nameText _ _ ih ih' => exact told_member nameText ih ih'

end

/-- **A text is of one value.** -/
theorem Written.unique {v v' : Json N} {text : List (Symbol H)} (numbers : LawfulNumbers numberText)
    (written : Written numberText holes (.spaced v) text) (written' : Written numberText holes (.spaced v') text) :
    v = v' := by
  have nothing (x : Symbol H) (mem : x ∈ ([] : List (Symbol H)).head?) : Symbol.Is IsClosing x := by cases mem
  exact Node.spaced.inj (written.told numbers written' trivial nothing nothing rfl).1

end

end FaasNet.Lib.Json
