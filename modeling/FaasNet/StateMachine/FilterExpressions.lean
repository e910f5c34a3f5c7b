import Mathlib.Data.List.DropRight
import FaasNet.Common.Text
import FaasNet.Lib.JsonUnique

/-!
# Filter expressions

`JTokenExtensions`. Expressions are found in a filter by a regular expression, evaluated, and their values are put back as
text; the result is parsed again, or taken as a string if it cannot be.
-/

namespace FaasNet.StateMachine

open FaasNet.Lib FaasNet.Common

/-- What is used of the platform: word characters beyond ASCII, the JQ evaluator (`none` if it throws), the text of a number
in the culture of the server, the text of an object or array, and `JToken.Parse`: `none` if it throws, `some none` for a
token that is no JSON value, such as a date. -/
structure FilterServices (N : Type*) where
  wordBeyondAscii : Char → Bool
  evalToToken : List Char → Json N → Option (Json N)
  numberToString : N → List Char
  containerToString : Json N → List Char
  parse : List Char → Option (Option (Json N))

/-- `string.Trim` with a character. -/
def trimOf (p : Char → Bool) (text : List Char) : List Char := (text.dropWhile p).rdropWhile p

namespace JTokenExtensions

/-- `Clean`. -/
def clean (str : List Char) : List Char :=
  trimOf isWhiteSpace ((((trimOf (· = '#') (trimOf (· = '\"') str)).dropWhile (· = '$')).dropWhile (· = '{')).rdropWhile (· = '}'))

section
variable {N : Type*} (services : FilterServices N)

/-- `\w`. -/
def isWord (c : Char) : Bool := c.isAlphanum || c = '_' || (128 ≤ c.toNat && services.wordBeyondAscii c)

/-- The characters that the regular expression takes for those of an expression. -/
def isExpressionChar (c : Char) : Bool :=
  c = '\"' || c = ' ' || isWord services c || c = '.' || c = '>' || c = '<' || c = '=' || c = '[' || c = ']' || c = ')' ||
    c = '(' || c = '|'

/-- The match from behind the opening brace. The class has no closing brace, so there is one way to take it. -/
def matchBody (text : List Char) : Option (List Char) :=
  let body := text.takeWhile (isExpressionChar services)
  match text.dropWhile (isExpressionChar services) with
  | '}' :: '\"' :: _ => some (body ++ ['}', '\"'])
  | '}' :: _ => some (body ++ ['}'])
  | _ => none

/-- The match of `REGEX_STR` that starts here. -/
def matchAt : List Char → Option (List Char)
  | '\"' :: '$' :: '{' :: text => (matchBody services text).map ('\"' :: '$' :: '{' :: ·)
  | '$' :: '{' :: text => (matchBody services text).map ('$' :: '{' :: ·)
  | _ => none

/-- `Regex.Replace` from left to right, when so many characters belong to a match already. -/
def replaceMatches (evaluator : List Char → Option (List Char)) : Nat → List Char → Option (List Char)
  | _, [] => some []
  | skip + 1, _ :: text => replaceMatches evaluator skip text
  | 0, c :: text =>
    match matchAt services (c :: text) with
    | some m => do
      let value ← evaluator m
      let rest ← replaceMatches evaluator (m.length - 1) text
      return value ++ rest
    | none => (replaceMatches evaluator 0 text).map (c :: ·)

/-- `Regex.Replace`. -/
def regexReplace (evaluator : List Char → Option (List Char)) (text : List Char) : Option (List Char) :=
  replaceMatches services evaluator 0 text

/-- `JToken.ToString`. -/
def toText : Json N → List Char
  | .null => []
  | .boolean value => if value then ['T', 'r', 'u', 'e'] else ['F', 'a', 'l', 's', 'e']
  | .number value => services.numberToString value
  | .string value => value
  | j@(.array _) => services.containerToString j
  | j@(.object _) => services.containerToString j

/-- The text that `Transform` puts in the place of an expression. -/
def rendered (r : Json N) : List Char :=
  let str := trimOf (· = '#') (toText services r)
  match r with
  | .string _ => '\"' :: str ++ ['\"']
  | _ => str

/-- `Transform`; `none` if it throws, `some none` for a token that is no JSON value. -/
def transform (token : Json N) (filter : List Char) : Option (Option (Json N)) :=
  if isNullOrWhiteSpace (some (String.ofList filter)) then some (some token)
  else
    (regexReplace services (fun m => (services.evalToToken (clean m) token).map (rendered services)) filter).map fun str =>
      match services.parse str with
      | some result => result
      | none => some (.string str)

/-- `CleanExpression`. -/
def cleanExpression (filter : List Char) : List Char :=
  (regexReplace services (fun m => some (clean m)) filter).getD []

end

end JTokenExtensions

/-! ## Placeholders -/

/-- A placeholder: an expression, in quotes or not. -/
structure Placeholder where
  quoted : Bool
  expression : List Char

/-- The expression as a filter. -/
def wrap (expression : List Char) : List Char := ['$', '{', ' '] ++ expression ++ [' ', '}']

/-- A placeholder in a filter. -/
def Placeholder.text (h : Placeholder) : List Char :=
  if h.quoted then '\"' :: wrap h.expression ++ ['\"'] else wrap h.expression

open JTokenExtensions

section
variable {N : Type*} {services : FilterServices N} {numberText : N → List Char → Prop} {dated : List Char → Bool}

/-- What Json.NET promises about a text: it is read as the value it is a text of, if no string in this has the form of a
date, and it is nested at most 64 deep; in quotes, quotes and backslashes are never read as themselves; and there are no
values `True`, `False` and nothing. -/
structure DocumentedAt (services : FilterServices N) (numberText : N → List Char → Prop) (dated : List Char → Bool)
    (text : List Char) : Prop where
  reads : ∀ j, Json.TextOf numberText j text → j.Distinct → j.Strings (dated · = false) → j.Within 64 →
    services.parse text = some (some j)
  undated : ∀ j, services.parse text = some (some j) → j.Strings (dated · = false)
  shallow : ∀ j, services.parse text = some (some j) → j.Within 64
  verbatim : ∀ body s, text = Json.quoted body → services.parse text = some (some (.string s)) →
    s.length ≤ body.length ∧ (s = body → '\"' ∉ s ∧ '\\' ∉ s)
  noTitle : ∀ b, text = toText services (.boolean b) → services.parse text ≠ some (some (.boolean b))
  noEmpty : services.parse [] ≠ some (some .null)
  number : ∀ n, services.parse text = some (some (.number n)) → text = trimOf (· = '#') (services.numberToString n) →
    numberText n text

/-- An expression of characters that are known, without white space around it. -/
def Plain (services : FilterServices N) (expression : List Char) : Prop :=
  (∀ c ∈ expression, isExpressionChar services c) ∧ trimOf isWhiteSpace expression = expression

/-- A value that the text which is put in its place is a text of. -/
def Renders (services : FilterServices N) (numberText : N → List Char → Prop) : Json N → Prop
  | .null => False
  | .boolean _ => False
  | .number n => numberText n (trimOf (· = '#') (services.numberToString n))
  | .string s => '\"' ∉ s ∧ '\\' ∉ s ∧ trimOf (· = '#') s = s
  | .array _ => True
  | .object _ => True

/-- Each expression of a template is cleaned and transformed faithfully, and so is the template. -/
def EvaluatesFaithfully (services : FilterServices N) (token : Json N) (holes : Placeholder → Json N)
    (symbols : List (Json.Symbol Placeholder)) (j : Json N) : Prop :=
  (∀ h, .inr h ∈ symbols → cleanExpression services (wrap h.expression) = h.expression ∧
    transform services token (wrap h.expression) = some (some (holes h))) ∧
  transform services token (Json.fill Placeholder.text symbols) = some (some j)

/-! ## Matches -/

/-- What is dropped at the end may as well not be there. -/
theorem rdropWhile_append {p : Char → Bool} {after : List Char} (back : ∀ c ∈ after, p c) (text : List Char) :
    (text ++ after).rdropWhile p = text.rdropWhile p := by
  induction after using List.reverseRecOn with
  | nil => rw [List.append_nil]
  | append_singleton after c ih =>
    rw [← List.append_assoc, List.rdropWhile_concat_pos _ _ _ (back c (by simp))]
    exact ih fun d mem => back d (List.mem_append_left _ mem)

/-- What is trimmed may as well not be there. -/
theorem trimOf_spaced {p : Char → Bool} {before after : List Char} (front : ∀ c ∈ before, p c) (back : ∀ c ∈ after, p c)
    (text : List Char) : trimOf p (before ++ text ++ after) = trimOf p text := by
  rw [trimOf, trimOf, List.append_assoc, List.dropWhile_append_of_pos front, List.dropWhile_append]
  split
  · next nothing =>
    have empty : text.dropWhile p = [] := List.isEmpty_iff.mp nothing
    have gone : after.dropWhile p = [] := List.dropWhile_eq_nil_iff.mpr back
    rw [empty, gone]
  · exact rdropWhile_append back _

/-- A text that neither begins nor ends with what is trimmed is left as it is. -/
theorem trimOf_self {p : Char → Bool} {first last : Char} (notFirst : ¬ p first) (notLast : ¬ p last)
    (inner : List Char) : trimOf p (first :: inner ++ [last]) = first :: inner ++ [last] := by
  rw [trimOf, List.cons_append, List.dropWhile_cons_of_neg notFirst, ← List.cons_append]
  exact List.rdropWhile_concat_neg _ _ _ notLast

theorem trimOf_wrap {p : Char → Bool} (notDollar : ¬ p '$') (notBrace : ¬ p '}') (expression : List Char) :
    trimOf p (wrap expression) = wrap expression := by
  have eq : wrap expression = '$' :: ('{' :: ' ' :: expression ++ [' ']) ++ ['}'] := by simp [wrap]
  rw [eq]
  exact trimOf_self notDollar notBrace _

/-- `Clean` gives the expression without the white space around it. -/
theorem clean_text (h : Placeholder) : clean h.text = trimOf isWhiteSpace h.expression := by
  have quotes : trimOf (· = '\"') h.text = wrap h.expression := by
    rw [← trimOf_wrap (p := (· = '\"')) (by decide) (by decide) h.expression, Placeholder.text]
    split
    · have quote : ∀ c ∈ ['\"'], decide (c = '\"') := List.forall_mem_singleton.mpr (by decide)
      exact trimOf_spaced quote quote _
    · rfl
  have inside : wrap h.expression = '$' :: '{' :: ((' ' :: h.expression ++ [' ']) ++ ['}']) := by simp [wrap]
  rw [clean, quotes, trimOf_wrap (by decide) (by decide), inside, List.dropWhile_cons_of_pos (by decide),
    List.dropWhile_cons_of_neg (by decide), List.dropWhile_cons_of_pos (by decide), List.cons_append, List.cons_append,
    List.dropWhile_cons_of_neg (by decide), ← List.cons_append, ← List.cons_append,
    List.rdropWhile_concat_pos _ _ _ (by decide), List.rdropWhile_concat_neg _ _ _ (by decide)]
  have blank : ∀ c ∈ [' '], isWhiteSpace c := List.forall_mem_singleton.mpr (by decide)
  exact trimOf_spaced blank blank _

theorem isExpressionChar_brace : isExpressionChar services '}' = false := by
  simp [isExpressionChar, isWord]

theorem isExpressionChar_blank : isExpressionChar services ' ' = true := by
  simp [isExpressionChar]

/-- An expression of known characters is matched as a whole, with the quotes around it. -/
theorem matchAt_text {h : Placeholder} (known : ∀ c ∈ h.expression, isExpressionChar services c) {rest : List Char}
    (apart : h.quoted = false → rest.head? ≠ some '\"') : matchAt services (h.text ++ rest) = some h.text := by
  have body (rest : List Char) : ∀ c ∈ ' ' :: h.expression ++ [' '], isExpressionChar services c := by
    intro c mem
    rw [List.cons_append, List.mem_cons, List.mem_append, List.mem_singleton] at mem
    rcases mem with rfl | mem | rfl
    · exact isExpressionChar_blank
    · exact known c mem
    · exact isExpressionChar_blank
  have taken (rest : List Char) : ((' ' :: h.expression ++ [' ']) ++ '}' :: rest).takeWhile (isExpressionChar services) =
      ' ' :: h.expression ++ [' '] := by
    rw [List.takeWhile_append_of_pos (body rest), List.takeWhile_cons_of_neg (by simp [isExpressionChar_brace]),
      List.append_nil]
  have left (rest : List Char) : ((' ' :: h.expression ++ [' ']) ++ '}' :: rest).dropWhile (isExpressionChar services) =
      '}' :: rest := by
    rw [List.dropWhile_append_of_pos (body rest), List.dropWhile_cons_of_neg (by simp [isExpressionChar_brace])]
  cases quoted : h.quoted with
  | true =>
    have split : h.text ++ rest =
        '\"' :: '$' :: '{' :: ((' ' :: h.expression ++ [' ']) ++ '}' :: '\"' :: rest) := by
      simp [Placeholder.text, quoted, wrap]
    rw [split, matchAt, matchBody, taken, left]
    simp [Placeholder.text, quoted, wrap]
  | false =>
    have split : h.text ++ rest = '$' :: '{' :: ((' ' :: h.expression ++ [' ']) ++ '}' :: rest) := by
      simp [Placeholder.text, quoted, wrap]
    rw [split, matchAt, matchBody, taken, left]
    have alone := apart quoted
    cases rest with
    | nil => simp [Placeholder.text, quoted, wrap]
    | cons c rest =>
      have notQuote : c ≠ '\"' := fun eq => alone (by rw [eq]; rfl)
      split
      · next eq => exact absurd (List.cons.inj (List.cons.inj eq).2).1 notQuote
      · simp [Placeholder.text, quoted, wrap]
      · next other => exact absurd rfl (other _)

/-- Without an opening brace nothing is matched. -/
theorem replaceMatches_of_noBrace {evaluator : List Char → Option (List Char)} {text : List Char} (noBrace : '{' ∉ text) :
    replaceMatches services evaluator 0 text = some text := by
  induction text with
  | nil => rfl
  | cons c rest ih =>
    rw [List.mem_cons, not_or] at noBrace
    have unmatched : matchAt services (c :: rest) = none := by
      unfold matchAt
      split
      · next eq => exact absurd (by rw [(List.cons.inj eq).2]; simp) noBrace.2
      · next eq => exact absurd (by rw [(List.cons.inj eq).2]; simp) noBrace.2
      · rfl
    rw [replaceMatches, unmatched, ih noBrace.2]
    rfl

/-- What belongs to a match is passed over. -/
theorem replaceMatches_skip {evaluator : List Char → Option (List Char)} (skipped text : List Char) :
    replaceMatches services evaluator skipped.length (skipped ++ text) = replaceMatches services evaluator 0 text := by
  induction skipped with
  | nil => rfl
  | cons c rest ih => exact ih

/-- A match is replaced, then the rest. -/
theorem replaceMatches_matched {evaluator : List Char → Option (List Char)} {m rest : List Char}
    (matched : matchAt services (m ++ rest) = some m) (nonempty : m ≠ []) :
    replaceMatches services evaluator 0 (m ++ rest) =
      (evaluator m).bind fun value => (replaceMatches services evaluator 0 rest).map (value ++ ·) := by
  cases m with
  | nil => exact absurd rfl nonempty
  | cons c m =>
    have skip : replaceMatches services evaluator m.length (m ++ rest) = replaceMatches services evaluator 0 rest :=
      replaceMatches_skip m rest
    rw [List.cons_append] at matched ⊢
    rw [replaceMatches, matched]
    simp only [List.length_cons, Nat.add_sub_cancel, skip]
    cases evaluator (c :: m) with
    | none => rfl
    | some value => cases replaceMatches services evaluator 0 rest <;> rfl

theorem text_ne_nil (h : Placeholder) : h.text ≠ [] := by
  rw [Placeholder.text]
  split <;> simp [wrap]

/-- A filter that is one expression. -/
theorem regexReplace_wrap {evaluator : List Char → Option (List Char)} {expression : List Char}
    (known : ∀ c ∈ expression, isExpressionChar services c) :
    regexReplace services evaluator (wrap expression) = evaluator (wrap expression) := by
  have matched : matchAt services (wrap expression ++ []) = some (wrap expression) :=
    matchAt_text (h := ⟨false, expression⟩) known fun _ => by simp
  have replaced : replaceMatches services evaluator 0 (wrap expression ++ []) = _ :=
    replaceMatches_matched matched (by simp [wrap])
  rw [List.append_nil] at replaced
  rw [regexReplace, replaced]
  cases evaluator (wrap expression) with
  | none => rfl
  | some value => simp [replaceMatches]

/-- A filter with a character that is not known is left as it is. -/
theorem regexReplace_of_unknown {evaluator : List Char → Option (List Char)} {expression : List Char}
    (noBrace : '{' ∉ expression ∧ '}' ∉ expression) (unknown : ∃ c ∈ expression, ¬ isExpressionChar services c) :
    regexReplace services evaluator (wrap expression) = some (wrap expression) := by
  -- the class ends inside the expression
  have stops : ∀ rest, (' ' :: expression ++ [' ', '}']).dropWhile (isExpressionChar services) ≠ '}' :: rest := by
    intro rest eq
    obtain ⟨c, mem, unknown⟩ := unknown
    rw [List.cons_append, List.dropWhile_cons_of_pos isExpressionChar_blank, List.dropWhile_append] at eq
    split at eq
    · next nothing => exact unknown (List.dropWhile_eq_nil_iff.mp (List.isEmpty_iff.mp nothing) c mem)
    · next something =>
      obtain ⟨d, left, left_eq⟩ := List.exists_cons_of_ne_nil fun nil => something (List.isEmpty_iff.mpr nil)
      rw [left_eq] at eq
      obtain rfl := (List.cons.inj eq).1
      exact noBrace.2 ((List.dropWhile_sublist _).subset (left_eq ▸ List.mem_cons_self))
  have unmatched : matchAt services ('$' :: '{' :: (' ' :: expression ++ [' ', '}'])) = none := by
    rw [matchAt, matchBody, Option.map_eq_none_iff]
    split
    · next eq => exact absurd eq (stops _)
    · next eq => exact absurd eq (stops _)
    · rfl
  have tail : '{' ∉ (' ' :: expression ++ [' ', '}']) := by simp [noBrace.1]
  have brace : matchAt services ('{' :: (' ' :: expression ++ [' ', '}'])) = none := rfl
  have eq : wrap expression = '$' :: '{' :: (' ' :: expression ++ [' ', '}']) := by simp [wrap]
  rw [eq, regexReplace, replaceMatches, unmatched, replaceMatches, brace, replaceMatches_of_noBrace tail]
  rfl

/-- No placeholder begins with a brace. -/
theorem exists_of_fill_brace {symbols : List (Json.Symbol Placeholder)} {text : List Char}
    (eq : Json.fill Placeholder.text symbols = '{' :: text) : ∃ rest, symbols = .inl '{' :: rest := by
  cases symbols with
  | nil => cases eq
  | cons x rest =>
    cases x with
    | inl c =>
      obtain rfl := (List.cons.inj eq).1
      exact ⟨rest, rfl⟩
    | inr h =>
      rw [Json.fill_inr, Placeholder.text] at eq
      split at eq <;> simp [wrap] at eq

/-- **In a template whose expressions are matched, each is replaced and nothing else is.** -/
theorem regexReplace_template {evaluator : List Char → Option (List Char)} {texts : Placeholder → List Char}
    {symbols : List (Json.Symbol Placeholder)} (apart : symbols.IsChain Json.Apart)
    (noOther : ¬ [Sum.inl '$', Sum.inl '{'] <:+: symbols)
    (known : ∀ h, .inr h ∈ symbols → ∀ c ∈ h.expression, isExpressionChar services c)
    (evaluated : ∀ h, .inr h ∈ symbols → evaluator h.text = some (texts h)) :
    regexReplace services evaluator (Json.fill Placeholder.text symbols) = some (Json.fill texts symbols) := by
  rw [regexReplace]
  induction symbols with
  | nil => rfl
  | cons x rest ih =>
    obtain ⟨beside, apart⟩ := List.isChain_cons.mp apart
    have noOther' : ¬ [Sum.inl '$', Sum.inl '{'] <:+: rest := fun found =>
      noOther (found.trans (List.suffix_cons x rest).isInfix)
    have inner := ih apart noOther' (fun h mem => known h (List.mem_cons_of_mem _ mem))
      fun h mem => evaluated h (List.mem_cons_of_mem _ mem)
    cases x with
    | inl c =>
      have unmatched : matchAt services (c :: Json.fill Placeholder.text rest) = none := by
        unfold matchAt
        split
        · next text whole =>
          obtain rfl := (List.cons.inj whole).1
          have eq := (List.cons.inj whole).2
          -- a quote before an opening that is not one of a placeholder
          rcases rest with _ | ⟨d | h, rest⟩
          · cases eq
          · obtain rfl := (List.cons.inj eq).1
            obtain ⟨rest, rfl⟩ := exists_of_fill_brace (List.cons.inj eq).2
            exact absurd (List.prefix_append [_, _] _).isInfix noOther'
          · obtain ⟨d, ⟨⟩, notQuote⟩ := (beside (.inr h) rfl).2 rfl
            exact absurd rfl notQuote
        · next text whole =>
          obtain rfl := (List.cons.inj whole).1
          have eq := (List.cons.inj whole).2
          obtain ⟨rest, rfl⟩ := exists_of_fill_brace eq
          exact absurd (List.prefix_append [_, _] _).isInfix noOther
        · rfl
      rw [Json.fill_inl, Json.fill_inl, replaceMatches, unmatched, inner]
      rfl
    | inr h =>
      have next : h.quoted = false → (Json.fill Placeholder.text rest).head? ≠ some '\"' := by
        intro _ quote
        rcases rest with _ | ⟨d | h', rest⟩
        · cases quote
        · obtain ⟨e, eq, notQuote⟩ := (beside (.inl d) rfl).1 rfl
          obtain rfl := Sum.inl.inj eq
          exact notQuote (Option.some.inj quote)
        · obtain ⟨e, ⟨⟩, -⟩ := (beside (.inr h') rfl).1 rfl
      rw [Json.fill_inr, Json.fill_inr, replaceMatches_matched (matchAt_text (known h List.mem_cons_self) next) (text_ne_nil h),
        evaluated h List.mem_cons_self, inner]
      rfl

/-! ## Values that are put back -/

/-- A text with something else in it is not white space. -/
theorem visible_of_mem {text : List Char} {c : Char} (mem : c ∈ text) (visible : isWhiteSpace c = false) :
    isNullOrWhiteSpace (some (String.ofList text)) = false := by
  simp only [isNullOrWhiteSpace, Option.elim_some, String.toList_ofList, List.all_eq_false]
  exact ⟨c, mem, by simp [visible]⟩

theorem dollar_mem_text (h : Placeholder) : '$' ∈ h.text := by
  rw [Placeholder.text]
  split <;> simp [wrap]

/-- The text of a value that can be put back. -/
theorem written_rendered {r : Json N} (renders : Renders services numberText r)
    (container : r.IsContainer → Json.Written numberText Empty.elim (.value r) (Json.chars (services.containerToString r))) :
    Json.Written numberText Empty.elim (.value r) (Json.chars (rendered services r)) := by
  have bracketed (containing : r.IsContainer) :
      trimOf (· = '#') (services.containerToString r) = services.containerToString r := by
    obtain ⟨first, inner, last, eq, brackets⟩ := (container containing).brackets containing
    rw [eq]
    have pair : (first = '[' ∧ last = ']') ∨ (first = '{' ∧ last = '}') := by simpa using brackets
    rcases pair with ⟨rfl, rfl⟩ | ⟨rfl, rfl⟩ <;> exact trimOf_self (by decide) (by decide) inner
  cases r with
  | null => exact renders.elim
  | boolean b => exact renders.elim
  | number n => exact .number renders
  | string s =>
    rw [rendered, toText, renders.2.2]
    exact .string (Json.stringBody_self renders.1 renders.2.1)
  | array items =>
    have text : rendered services (.array items) = trimOf (· = '#') (services.containerToString (.array items)) := rfl
    rw [text, bracketed trivial]
    exact container trivial
  | object members =>
    have text : rendered services (.object members) = trimOf (· = '#') (services.containerToString (.object members)) := rfl
    rw [text, bracketed trivial]
    exact container trivial

theorem textOf_of_written {r : Json N} {text : List Char}
    (written : Json.Written numberText Empty.elim (.value r) (Json.chars text)) : Json.TextOf numberText r text :=
  written.unpadded

theorem trimOf_eq_of_length {p : Char → Bool} {text : List Char} (long : text.length ≤ (trimOf p text).length) :
    trimOf p text = text :=
  ((List.rdropWhile_prefix p _).sublist.trans (List.dropWhile_sublist p)).eq_of_length_le long

/-- What is read as the value itself can be put back. -/
theorem renders_of_parse {r : Json N} (law : DocumentedAt services numberText dated (rendered services r))
    (read : services.parse (rendered services r) = some (some r)) : Renders services numberText r := by
  cases r with
  | null => exact law.noEmpty read
  | boolean b =>
    have text : rendered services (.boolean b : Json N) = toText services (.boolean b) := by
      cases b <;> rfl
    exact law.noTitle b text read
  | number n => exact law.number n read rfl
  | string s =>
    obtain ⟨short, verbatim⟩ := law.verbatim _ s rfl read
    have whole := trimOf_eq_of_length short
    obtain ⟨noQuote, noEscape⟩ := verbatim whole.symm
    exact ⟨noQuote, noEscape, whole⟩
  | array items => trivial
  | object members => trivial

/-- No string is the text that is put in its place. -/
theorem rendered_ne {r : Json N} : r ≠ .string (rendered services r) := by
  intro eq
  cases r with
  | string s =>
    have same : s = '\"' :: trimOf (· = '#') s ++ ['\"'] := by simpa [rendered, toText] using eq
    have whole : trimOf (· = '#') s = s := by
      rw [same]
      exact trimOf_self (by decide) (by decide) _
    have long := congrArg List.length same
    rw [whole] at long
    simp only [List.length_append, List.length_cons, List.length_nil] at long
    omega
  | null | boolean | number | array | object => cases eq

/-! ## Expressions and templates -/

/-- The texts that are parsed: that of each value, and the template with all of them. -/
def ParsedTexts (services : FilterServices N) (holes : Placeholder → Json N)
    (symbols : List (Json.Symbol Placeholder)) : Set (List Char) :=
  { text | text = Json.fill (fun h => rendered services (holes h)) symbols ∨
    ∃ h, .inr h ∈ symbols ∧ text = rendered services (holes h) }

/-- An expression is cleaned faithfully exactly if it is plain. -/
theorem cleanExpression_eq_iff {expression : List Char} (noBrace : '{' ∉ expression ∧ '}' ∉ expression) :
    cleanExpression services (wrap expression) = expression ↔ Plain services expression := by
  by_cases known : ∀ c ∈ expression, isExpressionChar services c
  · have cleaned : clean (wrap expression) = trimOf isWhiteSpace expression := clean_text ⟨false, expression⟩
    rw [cleanExpression, regexReplace_wrap known, Option.getD_some, cleaned]
    exact ⟨fun eq => ⟨known, eq⟩, fun plain => plain.2⟩
  · have unknown : ∃ c ∈ expression, ¬ isExpressionChar services c := by simpa using known
    rw [cleanExpression, regexReplace_of_unknown noBrace unknown, Option.getD_some]
    refine ⟨fun eq => ?_, fun plain => absurd plain.1 known⟩
    have long := congrArg List.length eq
    simp only [wrap, List.length_append, List.length_cons, List.length_nil] at long
    omega

/-- `Transform` where each expression is plain. -/
theorem transform_template {token : Json N} {holes : Placeholder → Json N} {symbols : List (Json.Symbol Placeholder)}
    {j : Json N} (template : Json.Written numberText holes (.spaced j) symbols)
    (noOther : ¬ [Sum.inl '$', Sum.inl '{'] <:+: symbols)
    (visible : ∀ n text, numberText n text → ∃ c ∈ text, isWhiteSpace c = false)
    (evaluated : ∀ h, .inr h ∈ symbols → services.evalToToken h.expression token = some (holes h))
    (plain : ∀ h, .inr h ∈ symbols → Plain services h.expression) :
    transform services token (Json.fill Placeholder.text symbols) =
      some (match services.parse (Json.fill (fun h => rendered services (holes h)) symbols) with
        | some result => result
        | none => some (.string (Json.fill (fun h => rendered services (holes h)) symbols))) := by
  have seen : isNullOrWhiteSpace (some (String.ofList (Json.fill Placeholder.text symbols))) = false := by
    obtain ⟨x, mem, shown⟩ := template.visible (P := fun c => isWhiteSpace c = false) visible (by simp [isWhiteSpace]) (.inr rfl)
    cases x with
    | inl c =>
      refine visible_of_mem (c := c) ?_ (shown c rfl)
      exact List.mem_flatMap.mpr ⟨_, mem, List.mem_singleton_self c⟩
    | inr h => exact visible_of_mem (List.mem_flatMap.mpr ⟨_, mem, dollar_mem_text h⟩) (by decide)
  have replaced : regexReplace services (fun m => (services.evalToToken (clean m) token).map (rendered services))
      (Json.fill Placeholder.text symbols) = some (Json.fill (fun h => rendered services (holes h)) symbols) := by
    refine regexReplace_template template.apart noOther (fun h mem => (plain h mem).1) fun h mem => ?_
    rw [clean_text, (plain h mem).2, evaluated h mem]
    rfl
  rw [transform, seen, replaced]
  rfl

/-- **Expressions are evaluated faithfully exactly if they are plain, their values can be put back, no string has the form of a
date, and the whole is nested at most 64 deep.** -/
theorem evaluatesFaithfully_iff {token : Json N} {holes : Placeholder → Json N}
    {symbols : List (Json.Symbol Placeholder)} {j : Json N} (template : Json.Written numberText holes (.spaced j) symbols)
    (noOther : ¬ [Sum.inl '$', Sum.inl '{'] <:+: symbols) (distinct : j.Distinct)
    (noBrace : ∀ h, .inr h ∈ symbols → '{' ∉ h.expression ∧ '}' ∉ h.expression)
    (evaluated : ∀ h, .inr h ∈ symbols → services.evalToToken h.expression token = some (holes h))
    (law : ∀ text ∈ ParsedTexts services holes symbols, DocumentedAt services numberText dated text)
    (visible : ∀ n text, numberText n text → ∃ c ∈ text, isWhiteSpace c = false)
    (containers : ∀ h, .inr h ∈ symbols → (holes h).IsContainer →
      Json.Written numberText Empty.elim (.value (holes h)) (Json.chars (services.containerToString (holes h)))) :
    EvaluatesFaithfully services token holes symbols j ↔
      (∀ h, .inr h ∈ symbols → Plain services h.expression ∧ Renders services numberText (holes h)) ∧
        j.Strings (dated · = false) ∧ j.Within 64 := by
  -- a template that is one of the expressions
  have single (h : Placeholder) (mem : .inr h ∈ symbols) (plain : Plain services h.expression) :
      transform services token (wrap h.expression) = some (match services.parse (rendered services (holes h)) with
        | some result => result
        | none => some (.string (rendered services (holes h)))) := by
    have alone : Json.Written numberText (fun _ => holes h) (.value (holes h)) [Sum.inr (Placeholder.mk false h.expression)] :=
      .hole _
    have one : transform services token (Json.fill Placeholder.text [.inr ⟨false, h.expression⟩]) = _ :=
      transform_template alone.unpadded
      (fun found => by have short := found.length_le; simp at short) visible
      (fun g eq => by obtain rfl : g = ⟨false, h.expression⟩ := by simpa using eq
                      exact evaluated h mem)
      (fun g eq => by obtain rfl : g = ⟨false, h.expression⟩ := by simpa using eq
                      exact plain)
    have shown : Json.fill Placeholder.text [.inr ⟨false, h.expression⟩] = wrap h.expression := List.append_nil _
    have put : Json.fill (fun _ => rendered services (holes h)) [(.inr ⟨false, h.expression⟩ : Json.Symbol Placeholder)] =
        rendered services (holes h) := List.append_nil _
    rwa [shown, put] at one
  have written (renders : ∀ h, .inr h ∈ symbols → Renders services numberText (holes h)) :
      Json.TextOf numberText j (Json.fill (fun h => rendered services (holes h)) symbols) :=
    template.fill fun h mem => written_rendered (renders h mem) (containers h mem)
  constructor
  · rintro ⟨singles, whole⟩
    have plain (h) (mem : .inr h ∈ symbols) := (cleanExpression_eq_iff (noBrace h mem)).mp (singles h mem).1
    have renders (h) (mem : .inr h ∈ symbols) : Renders services numberText (holes h) := by
      have same := (singles h mem).2
      rw [single h mem (plain h mem)] at same
      cases read : services.parse (rendered services (holes h)) with
      | none =>
        rw [read] at same
        exact absurd (Option.some.inj (Option.some.inj same)).symm rendered_ne
      | some result =>
        rw [read] at same
        exact renders_of_parse (law _ (.inr ⟨h, mem, rfl⟩)) (read.trans same)
    rw [transform_template template noOther visible evaluated plain] at whole
    refine ⟨fun h mem => ⟨plain h mem, renders h mem⟩, ?_⟩
    cases read : services.parse (Json.fill (fun h => rendered services (holes h)) symbols) with
    | none =>
      -- the text of the template is no string that it denotes
      rw [read] at whole
      have eq : Json.string _ = j := Option.some.inj (Option.some.inj whole)
      have shorter := written renders
      rw [← eq] at shorter
      exact absurd shorter.length_lt (Nat.lt_irrefl _)
    | some result =>
      rw [read] at whole
      obtain rfl := Option.some.inj whole
      exact ⟨(law _ (.inl rfl)).undated j read, (law _ (.inl rfl)).shallow j read⟩
  · rintro ⟨good, undated, shallow⟩
    have renders (h) (mem : .inr h ∈ symbols) := (good h mem).2
    refine ⟨fun h mem => ⟨(cleanExpression_eq_iff (noBrace h mem)).mpr (good h mem).1, ?_⟩, ?_⟩
    · obtain ⟨k, v, among, part⟩ := template.part_of_hole mem
      obtain rfl := List.mem_singleton.mp among
      rw [single h mem (good h mem).1, (law _ (.inr ⟨h, mem, rfl⟩)).reads (holes h)
        (textOf_of_written (written_rendered (renders h mem) (containers h mem)))
        (Json.hereditary_distinct k _ _ part distinct) (Json.hereditary_strings _ k _ _ part undated)
        (Json.hereditary_within _ k _ _ part shallow)]
    · rw [transform_template template noOther visible evaluated fun h mem => (good h mem).1,
        (law _ (.inl rfl)).reads j (written renders) distinct undated shallow]

end

/-! ## The member of an object -/

/-- A text that is read as its value, a string or an object, is documented where no string has the form of a date. -/
theorem documentedAt_of_reads {N : Type*} {services : FilterServices N} {numberText : N → List Char → Prop}
    {text : List Char} {v : Json N} (numbers : Json.LawfulNumbers numberText) (denotes : Json.TextOf numberText v text)
    (read : services.parse text = some (some v)) (shallow : v.Within 64)
    (verbatim : ∀ body s, text = Json.quoted body → v = .string s →
      s.length ≤ body.length ∧ (s = body → '\"' ∉ s ∧ '\\' ∉ s))
    (notBoolean : ∀ b, v ≠ .boolean b) (notNumber : ∀ n, v ≠ .number n)
    (noEmpty : services.parse [] ≠ some (some .null)) : DocumentedAt services numberText (fun _ => false) text := by
  have only {j : Json N} (other : services.parse text = some (some j)) : v = j :=
    Option.some.inj (Option.some.inj (read.symm.trans other))
  exact
    { reads := fun j written _ _ _ => by rw [read, denotes.unique numbers written]
      undated := fun _ _ _ _ _ => rfl
      shallow := fun j other => only other ▸ shallow
      verbatim := fun body s eq other => verbatim body s eq (only other)
      noTitle := fun b _ other => notBoolean b (only other)
      noEmpty := noEmpty
      number := fun n other _ => absurd (only other) (notNumber n) }

/-- The expression `.x` in quotes. -/
def dotX : Placeholder := ⟨true, ['.', 'x']⟩

/-- An object with one member. -/
def withX (x : Json Unit) : Json Unit := .object [(['x'], x)]

/-- The evaluator knows `.x`, the only number is written `5`. -/
def memberServices (parse : List Char → Option (Option (Json Unit))) : FilterServices Unit where
  wordBeyondAscii _ := false
  evalToToken expression token :=
    if expression = dotX.expression then
      match token with
      | .object [(_, x)] => some x
      | _ => none
    else none
  numberToString _ := ['5']
  containerToString _ := []
  parse := parse

/-- The number is written `5`. -/
def onlyFive (_ : Unit) (text : List Char) : Prop := text = ['5']

/-- `JToken.Parse`, as far as `5` is concerned. -/
def parseFive (text : List Char) : Option (Option (Json Unit)) := if text = ['5'] then some (some (.number ())) else none

/-- The number five is written in one way. -/
theorem lawful_onlyFive : Json.LawfulNumbers onlyFive where
  unique _ _ _ _ _ := rfl
  nonempty n text eq := by
    rw [eq]
    simp
  unreserved n text eq c mem := by
    rw [eq, List.mem_singleton] at mem
    subst mem
    simp [Json.IsReserved, Json.IsBlank, Json.IsClosing]

/-- A name. -/
def rex : Json Unit := .string ['R', 'e', 'x']

/-- An object with a name. -/
def withName (name : Json Unit) : Json Unit := .object [(['n'], name)]

/-- An object whose name is the expression. -/
def nameTemplate : List (Json.Symbol Placeholder) := .inl '{' :: (Json.chars "\"n\":".toList ++ [.inr dotX]) ++ [.inl '}']

/-- The name in quotes. -/
def rexText : List Char := "\"Rex\"".toList

/-- The object with the name, as it is filled in. -/
def namedRexText : List Char := "\x7b\"n\":\"Rex\"\x7d".toList

/-- `JToken.Parse`, as far as the two texts are concerned. -/
def parseRex (text : List Char) : Option (Option (Json Unit)) :=
  if text = rexText then some (some rex) else if text = namedRexText then some (some (withName rex)) else none

theorem textOf_rex : Json.TextOf onlyFive rex rexText := by
  have string : Json.Written onlyFive Empty.elim (.value rex) (Json.chars (Json.quoted ['R', 'e', 'x'])) :=
    .string (Json.stringBody_self (by decide) (by decide))
  exact string.unpadded

/-- The template denotes the object with the name. -/
theorem written_nameTemplate : Json.Written onlyFive (fun _ => rex) (.spaced (withName rex)) nameTemplate := by
  have key : Json.NameText ['n'] (Json.quoted ['n']) :=
    ⟨[], ['n'], [], by simp [Json.Blank], Json.stringBody_self (by decide) (by decide), by simp [Json.Blank], rfl⟩
  have hole : Json.Written onlyFive (fun _ => rex) (.value rex) [.inr dotX] := .hole dotX
  exact (Json.Written.object (.lastMember key hole.unpadded)).unpadded

theorem textOf_namedRex : Json.TextOf onlyFive (withName rex) namedRexText := by
  have string : Json.Written onlyFive Empty.elim (.value rex) (Json.chars rexText) :=
    .string (Json.stringBody_self (by decide) (by decide))
  have filled : Json.TextOf onlyFive (withName rex) (Json.fill (fun _ => rexText) nameTemplate) :=
    written_nameTemplate.fill fun _ _ => string
  exact filled

theorem within_withName : (withName rex).Within 64 := by
  intro k part inside container
  cases inside with
  | whole => decide
  | member mem inner =>
    rw [List.mem_singleton] at mem
    subst mem
    cases inner
    cases container

theorem distinct_withName : (withName rex).Distinct := by
  intro k members part
  cases part with
  | whole => decide
  | member mem inner =>
    rw [List.mem_singleton] at mem
    subst mem
    cases inner

theorem documented_rex : DocumentedAt (memberServices parseRex) onlyFive (fun _ => false) rexText := by
  refine documentedAt_of_reads lawful_onlyFive textOf_rex rfl ?_ ?_ (fun _ eq => by cases eq) (fun _ eq => by cases eq)
    (fun eq => by cases eq)
  · intro k part inside container
    cases inside
    cases container
  · intro body s eq string
    obtain rfl : ['R', 'e', 'x'] = s := Json.string.inj string
    obtain rfl : ['R', 'e', 'x'] = body := Json.quoted_injective eq
    decide

theorem documented_namedRex : DocumentedAt (memberServices parseRex) onlyFive (fun _ => false) namedRexText :=
  documentedAt_of_reads lawful_onlyFive textOf_namedRex rfl within_withName (fun _ _ _ eq => by cases eq)
    (fun _ eq => by cases eq) (fun _ eq => by cases eq) (fun eq => by cases eq)

/-- An object that is named by the expression, for a string. -/
theorem evaluatesFaithfully_rex : EvaluatesFaithfully (memberServices parseRex) (withX rex) (fun _ => rex) nameTemplate
    (withName rex) := by
  have only (h : Placeholder) (mem : Sum.inr h ∈ nameTemplate) : h = dotX := by
    simpa [nameTemplate, Json.chars] using mem
  have law : ∀ text ∈ ParsedTexts (memberServices parseRex) (fun _ => rex) nameTemplate,
      DocumentedAt (memberServices parseRex) onlyFive (fun _ => false) text := by
    rintro text (rfl | ⟨h, -, rfl⟩)
    · exact documented_namedRex
    · exact documented_rex
  refine (evaluatesFaithfully_iff written_nameTemplate (fun found => ?_) distinct_withName
    (fun h mem => by rw [only h mem]; decide) (fun h mem => by rw [only h mem]; rfl) law
    (fun n text eq => ⟨'5', by rw [eq]; simp, by decide⟩) fun h mem container => container.elim).mpr ?_
  · have dollar : Sum.inl '$' ∈ nameTemplate := found.subset List.mem_cons_self
    simp [nameTemplate, Json.chars] at dollar
  · refine ⟨fun h mem => ?_, fun _ _ _ => rfl, within_withName⟩
    rw [only h mem]
    exact ⟨⟨List.all_eq_true.mp (by decide), by decide⟩, by decide, by decide, rfl⟩

/-- A string that ends the one it is put into. -/
def twoMembers : List Char := "a\",\"m\":\"b".toList

/-- `JToken.Parse`, as far as the text with it is concerned. -/
def parseTwo (text : List Char) : Option (Option (Json Unit)) :=
  if text = "\x7b\"n\":\"a\",\"m\":\"b\"\x7d".toList then
    some (some (.object [(['n'], .string ['a']), (['m'], .string ['b'])]))
  else none

/-- A boolean becomes a string; a string adds a member to the object it is put into; a sum is not seen. -/
theorem not_evaluatesFaithfully_boolean :
    ¬ EvaluatesFaithfully (memberServices parseFive) (withX (.boolean true)) (fun _ => .boolean true) [.inr dotX]
        (.boolean true) ∧
      transform (memberServices parseTwo) (withX (.string twoMembers)) "\x7b\"n\":\"$\x7b .x \x7d\"\x7d".toList =
        some (some (.object [(['n'], .string ['a']), (['m'], .string ['b'])])) ∧
      cleanExpression (memberServices parseFive) (wrap ".a + .b".toList) = wrap ".a + .b".toList := by
  refine ⟨fun faithful => ?_, rfl, rfl⟩
  have text : transform (memberServices parseFive) (withX (.boolean true)) (wrap dotX.expression) =
      some (some (.string "True".toList)) := rfl
  have value := (faithful.1 dotX List.mem_cons_self).2
  rw [text] at value
  cases value

end FaasNet.StateMachine
