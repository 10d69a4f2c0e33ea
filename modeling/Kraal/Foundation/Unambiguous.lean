import Mathlib.Data.List.Forall2

/-!
# Texts that can be read off the front of a longer text

A text is unambiguous if no text of an unrelated value can be read in its place, whatever
follows it.  What follows is nothing, or starts with a delimiter: a text that has no closing
mark of its own ends there.

Main results:

- Theorem {lit}`append_inj_of_ends`: a text without delimiters ends at the first of them.
- Theorem {lit}`unambiguous_separated`: a list of unambiguous texts with a separator between
  them and a closing mark.
-/

namespace Foundation

variable {α β : Type} {Delimiter : α → Prop}

/-- Nothing follows, or a delimiter does. -/
def Ends (Delimiter : α → Prop) (rest : List α) : Prop :=
  ∀ c ∈ rest.head?, Delimiter c

/-- A text may end. -/
theorem ends_nil : Ends Delimiter [] := by
  intro c hc
  cases hc

/-- A text may go on with a delimiter. -/
theorem ends_cons {c : α} {rest : List α} (hc : Delimiter c) : Ends Delimiter (c :: rest) := by
  intro d hd
  rw [List.head?_cons, Option.mem_some_iff] at hd
  rwa [← hd]

/-- Two texts without delimiters are the same if they can be read in the same place. -/
theorem append_inj_of_ends {text text' rest rest' : List α} (htext : ∀ c ∈ text, ¬ Delimiter c)
    (htext' : ∀ c ∈ text', ¬ Delimiter c) (hrest : Ends Delimiter rest)
    (hrest' : Ends Delimiter rest') (h : text ++ rest = text' ++ rest') :
    text = text' ∧ rest = rest' := by
  induction text generalizing text' with
  | nil =>
      cases text' with
      | nil => exact ⟨rfl, h⟩
      | cons c text' =>
          rw [List.nil_append] at h
          rw [h] at hrest
          exact absurd (hrest c rfl) (htext' c List.mem_cons_self)
  | cons c text ih =>
      cases text' with
      | nil =>
          rw [List.nil_append] at h
          rw [← h] at hrest'
          exact absurd (hrest' c rfl) (htext c List.mem_cons_self)
      | cons c' text' =>
          rw [List.cons_append, List.cons_append, List.cons.injEq] at h
          have htail := ih (fun d hd => htext d (List.mem_cons_of_mem _ hd))
            (fun d hd => htext' d (List.mem_cons_of_mem _ hd)) h.2
          exact ⟨by rw [h.1, htail.1], htail.2⟩

/-- Where the text of a value stands, only texts of related values can be read. -/
def Unambiguous (Delimiter : α → Prop) (text : β → List α) (R : β → β → Prop) (b : β) : Prop :=
  ∀ b' rest rest', Ends Delimiter rest → Ends Delimiter rest' →
    text b ++ rest = text b' ++ rest' → R b b' ∧ rest = rest'

/-- The texts of some values with a separator between them. -/
def separated (sep : α) (text : β → List α) (bs : List β) : List α :=
  [sep].intercalate (bs.map text)

variable {sep close : α} {text : β → List α} {R : β → β → Prop}

/-- No items have no text. -/
@[simp]
theorem separated_nil : separated sep text [] = [] :=
  rfl

/-- What follows the first of some texts: a separator and the others, if there are any. -/
def afterFirst (sep : α) (text : β → List α) : List β → List α
  | [] => []
  | c :: bs => sep :: separated sep text (c :: bs)

/-- The text of an item, and what comes after it. -/
theorem separated_cons (b : β) (bs : List β) :
    separated sep text (b :: bs) = text b ++ afterFirst sep text bs := by
  cases bs with
  | nil => simp [separated, afterFirst]
  | cons c bs => simp [separated, afterFirst, List.intercalate_cons_cons]

/-- After an item comes a separator or the end. -/
theorem afterFirst_ends (hsep : Delimiter sep) (hclose : Delimiter close) (bs : List β)
    (rest : List α) : Ends Delimiter (afterFirst sep text bs ++ close :: rest) := by
  cases bs with
  | nil => exact ends_cons hclose
  | cons c bs => exact ends_cons hsep

/-- No text is empty, and none starts with the closing mark. -/
def Opens (close : α) (text : β → List α) : Prop :=
  ∀ b, ∃ c cs, text b = c :: cs ∧ c ≠ close

/-- The texts of at least one value do not start with the closing mark. -/
theorem separated_ne_close (hopens : Opens close text) (b : β) (bs : List β) (rest rest' : List α) :
    separated sep text (b :: bs) ++ rest ≠ close :: rest' := by
  intro h
  rcases hopens b with ⟨c, cs, htext, hc⟩
  rw [separated_cons, htext, List.cons_append, List.cons_append, List.cons.injEq] at h
  exact hc h.1

/-- A list of unambiguous texts is read item by item up to its closing mark. -/
theorem unambiguous_separated (hsep : Delimiter sep) (hclose : Delimiter close)
    (hne : sep ≠ close) (hopens : Opens close text) {bs bs' : List β} {rest rest' : List α}
    (hbs : ∀ b ∈ bs, Unambiguous Delimiter text R b)
    (h : separated sep text bs ++ close :: rest = separated sep text bs' ++ close :: rest') :
    List.Forall₂ R bs bs' ∧ rest = rest' := by
  induction bs generalizing bs' with
  | nil =>
      cases bs' with
      | nil =>
          rw [separated_nil, List.nil_append, List.nil_append, List.cons.injEq] at h
          exact ⟨.nil, h.2⟩
      | cons b' bs' => exact absurd h.symm (separated_ne_close hopens b' bs' _ _)
  | cons b bs ih =>
      cases bs' with
      | nil => exact absurd h (separated_ne_close hopens b bs _ _)
      | cons b' bs' =>
          rw [separated_cons, separated_cons, List.append_assoc, List.append_assoc] at h
          have hfirst := hbs b List.mem_cons_self b' _ _ (afterFirst_ends hsep hclose bs _)
            (afterFirst_ends hsep hclose bs' _) h
          rcases hfirst with ⟨hR, htail⟩
          -- both lists end here, or both go on after a separator
          cases bs with
          | nil =>
              cases bs' with
              | nil => exact ⟨.cons hR .nil, (List.cons.inj htail).2⟩
              | cons c' bs' => exact absurd (List.cons.inj htail).1.symm hne
          | cons c bs =>
              cases bs' with
              | nil => exact absurd (List.cons.inj htail).1 hne
              | cons c' bs' =>
                  have hothers := ih (fun d hd => hbs d (List.mem_cons_of_mem _ hd))
                    (List.cons.inj htail).2
                  exact ⟨.cons hR hothers.1, hothers.2⟩

end Foundation
