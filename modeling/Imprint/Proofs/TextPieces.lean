/-
Module: Imprint.Proofs.TextPieces
Purpose: Cutting texts at a separator and joining texts with one. Cutting is compatible with putting
  texts one after another, undoes joining, and what holds of the characters of a joined text is read
  off its pieces.
Main exports: Text.cut_append, Text.split_append, Text.split_join, Text.join_append,
  Text.join_flatten
-/
import Imprint.Text.Split

namespace Imprint.Text

variable {separator : Char} {between text piece : String} {pieces : List String}

/-! ### Cutting -/

section Lists

variable {α : Type} [DecidableEq α] {mark : α} {cs : List α}

/-- A separator in a list stands between the pieces before it and the pieces after it. -/
theorem cut_append (mark : α) (before after : List α) :
    cut mark (before ++ mark :: after) = cut mark before ++ cut mark after := by
  induction before with
  | nil => simp [cut]
  | cons c rest ih =>
      simp only [List.cons_append, cut, ih]
      split
      · rfl
      · cases found : cut mark rest with
        | nil => exact absurd found (cut_ne_nil mark rest)
        | cons piece pieces => rfl

theorem not_mem_of_mem_cut {piece : List α} (mem : piece ∈ cut mark cs) : mark ∉ piece := by
  induction cs generalizing piece with
  | nil =>
      rw [List.mem_singleton.mp mem]
      exact List.not_mem_nil
  | cons c rest ih =>
      rw [cut] at mem
      split at mem
      · rcases List.mem_cons.mp mem with rfl | inside
        · exact List.not_mem_nil
        · exact ih inside
      · rename_i other
        cases found : cut mark rest with
        | nil => exact absurd found (cut_ne_nil mark rest)
        | cons first pieces =>
            rw [found] at mem ih
            rcases List.mem_cons.mp mem with rfl | inside
            · intro same
              rcases List.mem_cons.mp same with eq | inPiece
              · exact other eq.symm
              · exact ih List.mem_cons_self inPiece
            · exact ih (List.mem_cons_of_mem first inside)

/-- A list without a separator is one piece. -/
theorem cut_of_not_mem (whole : mark ∉ cs) : cut mark cs = [cs] := by
  induction cs with
  | nil => rfl
  | cons c rest ih =>
      have other : c ≠ mark := fun eq => whole (eq ▸ List.mem_cons_self)
      have inner : mark ∉ rest := fun mem => whole (List.mem_cons_of_mem c mem)
      rw [cut, if_neg other, ih inner]

end Lists

/-- A separator in a text stands between the pieces before it and the pieces after it. -/
theorem split_append (separator : Char) (before after : String) :
    split separator (before ++ String.ofList [separator] ++ after) =
      split separator before ++ split separator after := by
  simp [split, cut_append]

theorem not_mem_of_mem_split (mem : piece ∈ split separator text) : separator ∉ piece.toList := by
  obtain ⟨chars, inside, rfl⟩ := List.mem_map.mp mem
  rw [String.toList_ofList]
  exact not_mem_of_mem_cut inside

theorem split_of_not_mem (whole : separator ∉ text.toList) : split separator text = [text] := by
  simp [split, cut_of_not_mem whole]

/-! ### Joining -/

theorem join_cons (first : String) {rest : List String} (more : rest ≠ []) :
    join between (first :: rest) = first ++ between ++ join between rest := by
  cases rest with
  | nil => exact absurd rfl more
  | cons second others => rfl

theorem join_append {before after : List String} (filled : before ≠ []) (more : after ≠ []) :
    join between (before ++ after) = join between before ++ between ++ join between after := by
  induction before with
  | nil => exact absurd rfl filled
  | cons first rest ih =>
      cases rest with
      | nil => exact join_cons first more
      | cons second others =>
          have inner := ih (List.cons_ne_nil second others)
          have longer : second :: others ++ after ≠ [] := List.cons_ne_nil _ _
          rw [List.cons_append, join_cons first longer, inner,
            join_cons first (List.cons_ne_nil second others)]
          simp only [String.append_assoc]

/-- Lists that are joined one by one can be joined all at once. -/
theorem join_flatten {lists : List (List String)}
    (filled : ∀ list ∈ lists, list ≠ []) (tail : String) :
    join between (lists.map (join between) ++ [tail]) =
      join between (lists.flatten ++ [tail]) := by
  induction lists with
  | nil => rfl
  | cons list rest ih =>
      have inner := ih fun other mem => filled other (List.mem_cons_of_mem list mem)
      have some_list : list ≠ [] := filled list List.mem_cons_self
      rw [List.map_cons, List.flatten_cons, List.append_assoc, join_append some_list (by simp),
        ← inner]
      exact join_append (List.cons_ne_nil (join between list) []) (by simp)

theorem infix_join {texts : List String} (mem : text ∈ texts) :
    text.toList <:+: (join between texts).toList := by
  induction texts with
  | nil => cases mem
  | cons first rest ih =>
      cases rest with
      | nil =>
          rw [List.mem_singleton.mp mem]
          exact List.infix_refl first.toList
      | cons other others =>
          rw [join, String.toList_append, String.toList_append]
          · rcases List.mem_cons.mp mem with rfl | inside
            · exact ⟨[], between.toList ++ (join between (other :: others)).toList, by simp⟩
            · exact (ih inside).trans (List.suffix_append _ _).isInfix
          · simp

/-! ### Cutting what was joined -/

/-- Cutting undoes joining when no piece has a separator in it. -/
theorem split_join (filled : pieces ≠ []) (whole : ∀ piece ∈ pieces, separator ∉ piece.toList) :
    split separator (join (String.ofList [separator]) pieces) = pieces := by
  induction pieces with
  | nil => exact absurd rfl filled
  | cons first rest ih =>
      have start : split separator first = [first] :=
        split_of_not_mem (whole first List.mem_cons_self)
      cases rest with
      | nil => exact start
      | cons second others =>
          have inner := ih (List.cons_ne_nil second others)
            fun piece mem => whole piece (List.mem_cons_of_mem first mem)
          rw [join_cons _ (List.cons_ne_nil second others), split_append, start, inner]
          rfl

end Imprint.Text
