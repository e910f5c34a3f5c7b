import Mathlib.Data.List.Basic

/-!
# Texts with placeholders

A template is literal text and names in braces. Replacing every occurrence of a name in braces, from left to right, replaces
the placeholders with this name and nothing else, because neither the literal text nor a name has a brace in it.
-/

namespace FaasNet.Lib

/-- Replaces `old` from left to right; so many characters have been replaced already. -/
def replaceFrom (old new : List Char) : Nat → List Char → List Char
  | _, [] => []
  | skip + 1, _ :: rest => replaceFrom old new skip rest
  | 0, c :: rest =>
    if old.isPrefixOf (c :: rest) then new ++ replaceFrom old new (old.length - 1) rest
    else c :: replaceFrom old new 0 rest

/-- `string.Replace`, of a text that is not empty. -/
def replaceAll (old new text : List Char) : List Char := replaceFrom old new 0 text

namespace Template

inductive Segment where
  | literal (text : List Char)
  | placeholder (name : List Char)
  deriving DecidableEq, Repr

/-- A name in braces. -/
def braced (name : List Char) : List Char := '{' :: (name ++ ['}'])

def Segment.text : Segment → List Char
  | literal text => text
  | placeholder name => braced name

/-- The text of a template. -/
def text (template : List Segment) : List Char := template.flatMap Segment.text

/-- There is no brace in it. -/
def NoBrace (text : List Char) : Prop := '{' ∉ text ∧ '}' ∉ text

/-- There is no brace but those of the placeholders. -/
def Segment.WellFormed : Segment → Prop
  | literal text => NoBrace text
  | placeholder name => NoBrace name

/-- Puts a text in the place of a name. -/
def Segment.fill (name new : List Char) : Segment → Segment
  | literal text => literal text
  | placeholder name' => if name' = name then literal new else placeholder name'

variable {old new name rest : List Char} {template : List Segment}

theorem replaceFrom_append (old new skipped rest : List Char) :
    replaceFrom old new skipped.length (skipped ++ rest) = replaceFrom old new 0 rest := by
  induction skipped with
  | nil => rfl
  | cons c skipped ih => exact ih

/-- Text that no occurrence begins in is left as it is. -/
theorem replaceFrom_literal {text : List Char} (noOpen : '{' ∉ text) (old new rest : List Char) :
    replaceFrom ('{' :: old) new 0 (text ++ rest) = text ++ replaceFrom ('{' :: old) new 0 rest := by
  induction text with
  | nil => rfl
  | cons c text ih =>
    simp only [List.mem_cons, not_or] at noOpen
    have other : ('{' == c) = false := by simpa using noOpen.1
    rw [List.cons_append, replaceFrom, List.isPrefixOf, other, Bool.false_and, if_neg Bool.false_ne_true, ih noOpen.2]
    rfl

/-- Names in braces begin alike only if they are the same. -/
theorem braced_begins {name' : List Char} (noClose : '}' ∉ name) (noClose' : '}' ∉ name') (rest : List Char) :
    (braced name).isPrefixOf (braced name' ++ rest) ↔ name = name' := by
  rw [List.isPrefixOf_iff_prefix, braced, braced, List.cons_append, List.cons_prefix_cons]
  simp only [true_and]
  constructor
  · induction name generalizing name' with
    | nil =>
      intro begins
      cases name' with
      | nil => rfl
      | cons c name' =>
        rw [List.nil_append, List.append_assoc, List.cons_append, List.cons_prefix_cons] at begins
        simp only [List.mem_cons, not_or] at noClose'
        exact absurd begins.1 noClose'.1
    | cons c name ih =>
      intro begins
      simp only [List.mem_cons, not_or] at noClose
      cases name' with
      | nil =>
        rw [List.nil_append, List.cons_append, List.singleton_append, List.cons_prefix_cons] at begins
        exact absurd begins.1.symm noClose.1
      | cons d name' =>
        simp only [List.mem_cons, not_or] at noClose'
        rw [List.cons_append, List.cons_append, List.cons_append, List.cons_prefix_cons] at begins
        rw [begins.1, ih noClose.2 noClose'.2 begins.2]
  · rintro rfl
    exact List.prefix_append _ _

/-- Replacing a name in braces fills the placeholders with this name. -/
theorem replaceAll_text (noClose : '}' ∉ name) (wellFormed : ∀ s ∈ template, s.WellFormed) (new : List Char) :
    replaceAll (braced name) new (text template) = text (template.map (Segment.fill name new)) := by
  induction template with
  | nil => rfl
  | cons s template ih =>
    have others := ih fun s member => wellFormed s (List.mem_cons_of_mem _ member)
    have here := wellFormed s List.mem_cons_self
    simp only [replaceAll, text, List.flatMap_cons, List.map_cons] at others ⊢
    cases s with
    | literal text =>
      rw [Segment.text, Segment.fill, Segment.text, ← others]
      exact replaceFrom_literal here.1 _ _ _
    | placeholder name' =>
      rw [Segment.text, Segment.fill, ← others]
      by_cases same : name' = name
      · subst same
        have begins := (braced_begins noClose noClose (template.flatMap Segment.text)).mpr rfl
        rw [if_pos rfl, Segment.text]
        have found : braced name' ++ template.flatMap Segment.text =
            '{' :: ((name' ++ ['}']) ++ template.flatMap Segment.text) := rfl
        rw [found] at begins ⊢
        rw [replaceFrom, if_pos begins]
        have long : (braced name').length - 1 = (name' ++ ['}']).length := by simp [braced]
        rw [long, replaceFrom_append]
      · have not : ¬ (braced name).isPrefixOf (braced name' ++ template.flatMap Segment.text) = true := fun begins =>
          same ((braced_begins noClose here.2 _).mp begins).symm
        rw [if_neg same, Segment.text]
        have found : braced name' ++ template.flatMap Segment.text =
            '{' :: ((name' ++ ['}']) ++ template.flatMap Segment.text) := rfl
        rw [found] at not ⊢
        have noOpen : '{' ∉ name' ++ ['}'] := by simp [here.1]
        rw [replaceFrom, if_neg not, braced, replaceFrom_literal noOpen]
        rfl

theorem wellFormed_fill (noBrace : NoBrace new) (wellFormed : ∀ s ∈ template, s.WellFormed) :
    ∀ s ∈ template.map (Segment.fill name new), s.WellFormed := by
  intro s member
  obtain ⟨s', inside, rfl⟩ := List.mem_map.mp member
  have here := wellFormed s' inside
  cases s' with
  | literal text => exact here
  | placeholder name' =>
    rw [Segment.fill]
    split
    · exact noBrace
    · exact here

end Template

end FaasNet.Lib
