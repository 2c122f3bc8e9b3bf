/-
Module: Imprint.Text.Split
Purpose: Cutting a text at a separator and joining texts with one; joining undoes cutting.
Main exports: Text.cut, Text.split, Text.join, Text.join_split
-/

namespace Imprint.Text

/-- The pieces between the separators in a list: one more than there are separators. -/
def cut {α : Type} [DecidableEq α] (separator : α) : List α → List (List α)
  | [] => [[]]
  | c :: rest =>
      if c = separator then [] :: cut separator rest
      else
        match cut separator rest with
        | [] => [[c]]
        | piece :: pieces => (c :: piece) :: pieces

/-- The pieces of a text between the separators. -/
def split (separator : Char) (text : String) : List String :=
  (cut separator text.toList).map String.ofList

/-- The texts one after the other with a separator between them. -/
def join (separator : String) : List String → String
  | [] => ""
  | [text] => text
  | text :: rest => text ++ separator ++ join separator rest

/-- Every list has at least one piece. -/
theorem cut_ne_nil {α : Type} [DecidableEq α] (separator : α) (cs : List α) :
    cut separator cs ≠ [] := by
  cases cs with
  | nil => simp [cut]
  | cons c rest =>
      simp only [cut]
      split
      · simp
      · split <;> simp

/-- Joining the pieces with the separator gives the text back. -/
theorem join_split (separator : Char) (text : String) :
    join (String.ofList [separator]) (split separator text) = text := by
  suffices pieces : ∀ cs : List Char,
      join (String.ofList [separator]) ((cut separator cs).map String.ofList) =
        String.ofList cs by
    simpa [split] using pieces text.toList
  intro cs
  induction cs with
  | nil => rfl
  | cons c rest ih =>
      rw [cut]
      cases found : cut separator rest with
      | nil => exact absurd found (cut_ne_nil separator rest)
      | cons piece pieces =>
          rw [found] at ih
          by_cases same : c = separator
          · subst same
            simp only [if_pos, List.map_cons] at ih ⊢
            rw [join, ih]
            · rw [← String.ofList_append]
              simp
            · simp
          · simp only [if_neg same, List.map_cons] at ih ⊢
            cases pieces with
            | nil =>
                simp only [List.map_nil, join] at ih ⊢
                simp only [String.ofList_cons, ih]
            | cons next more =>
                simp only [List.map_cons] at ih ⊢
                rw [join] at ih ⊢
                · simp only [← ih, String.ofList_cons]
                  simp only [String.append_assoc]
                · simp
                · simp

end Imprint.Text
