/-
Module: Imprint.Proofs.TemplatePieces
Purpose: The pieces of a template. Its literal stretches and its expressions are kept apart, and its text
  puts them together in the order of their starts. When the starts are strictly increasing along the
  source text, this is the order of the source text, however both lists are arranged. The walk leaves
  every piece where it starts, so the pieces of a template keep their order, ties included.
Main exports: Node.arranged, Node.spelled, Node.canonicalText_template, Rules.span_visit,
  templates_follow_source_order
-/
import Imprint.Proofs.ChainSpelling
import Mathlib.Data.List.Nodup

namespace Imprint

/-! ### Pieces in order -/

namespace Node

/-- Where a piece of a template starts: a literal stretch or an expression. -/
def pieceStart : Quasi ⊕ Node → UInt64
  | .inl quasi => quasi.span.start
  | .inr expression => expression.span.start

/-- The pieces of a template in the order of their starts. Pieces that start together keep the order of
the lists, expressions before literal stretches. -/
def arranged (quasis : List Quasi) (expressions : List Node) : List (Quasi ⊕ Node) :=
  (expressions.map Sum.inr ++ quasis.map Sum.inl).mergeSort fun first second =>
    pieceStart first ≤ pieceStart second

/-- A piece of a template as it is written, with a text for every expression. -/
def pieceText (text : Node → String) : Quasi ⊕ Node → String
  | .inl quasi => quasi.raw
  | .inr expression => "$\x7b" ++ text expression ++ "\x7d"

/-- A template as it is written, piece by piece, with a text for every expression. -/
def spelled (text : Node → String) (pieces : List (Quasi ⊕ Node)) : String :=
  "\x60" ++ Text.join "" (pieces.map (pieceText text)) ++ "\x60"

theorem expressionPieces_eq_map (expressions : List Node) :
    expressionPieces expressions =
      expressions.map fun expression =>
        ⟨expression.span.start, pieceText canonicalText (.inr expression)⟩ := by
  induction expressions with
  | nil => rfl
  | cons expression rest ih =>
      rw [expressionPieces, ih]
      rfl

/-- The text of a template is spelled by its pieces in the order of their starts. -/
theorem canonicalText_template (span : Span) (quasis : List Quasi) (expressions : List Node) :
    canonicalText ⟨span, .template quasis expressions⟩ =
      spelled canonicalText (arranged quasis expressions) := by
  let piece (part : Quasi ⊕ Node) : Piece := ⟨pieceStart part, pieceText canonicalText part⟩
  have pieces : (expressionPieces expressions ++
      quasis.map fun quasi => ⟨quasi.span.start, quasi.raw⟩) =
        (expressions.map Sum.inr ++ quasis.map Sum.inl).map piece := by
    rw [expressionPieces_eq_map, List.map_append, List.map_map, List.map_map]
    rfl
  have sorted : (arranged quasis expressions).map piece =
      ((expressions.map Sum.inr ++ quasis.map Sum.inl).map piece).mergeSort fun first second =>
        first.start ≤ second.start :=
    List.map_mergeSort fun _ _ _ _ => rfl
  rw [canonicalText, kindText, pieces, templateText, ← sorted, List.map_map]
  rfl

/-- Expressions that start where others start are arranged as those are. -/
theorem arranged_map {f : Node → Node} (quasis : List Quasi) {expressions : List Node}
    (starts : ∀ expression ∈ expressions, (f expression).span = expression.span) :
    arranged quasis (expressions.map f) = (arranged quasis expressions).map (Sum.map id f) := by
  have same : ∀ piece ∈ expressions.map Sum.inr ++ quasis.map Sum.inl,
      pieceStart (Sum.map id f piece) = pieceStart piece := by
    intro piece mem
    rcases List.mem_append.mp mem with inner | literal
    · obtain ⟨expression, among, rfl⟩ := List.mem_map.mp inner
      exact congrArg Span.start (starts expression among)
    · obtain ⟨quasi, -, rfl⟩ := List.mem_map.mp literal
      rfl
  have pieces : (expressions.map f).map Sum.inr ++ quasis.map Sum.inl =
      (expressions.map Sum.inr ++ quasis.map Sum.inl).map (Sum.map id f) := by
    simp [List.map_append, Function.comp_def]
  rw [arranged, arranged, pieces, List.map_mergeSort]
  intro first mem second otherMem
  rw [same first mem, same second otherMem]

/-- With other expressions in the places of these ones, a template is spelled with the texts of those. -/
theorem spelled_map (text : Node → String) (f : Node → Node) (pieces : List (Quasi ⊕ Node)) :
    spelled text (pieces.map (Sum.map id f)) =
      spelled (fun expression => text (f expression)) pieces := by
  have same : (pieceText text ∘ Sum.map id f) = pieceText fun expression => text (f expression) := by
    funext piece
    cases piece <;> rfl
  rw [spelled, spelled, List.map_map, same]

/-! ### Pieces in the order of the source text -/

/-- The pieces of a template in the order of the source text: a literal stretch, and then expressions, each
with the literal stretch after it. -/
def woven (first : Quasi) (rest : List (Node × Quasi)) : List (Quasi ⊕ Node) :=
  .inl first :: rest.flatMap fun pair => [.inr pair.1, .inl pair.2]

theorem perm_woven (first : Quasi) (rest : List (Node × Quasi)) :
    ((rest.map Prod.fst).map Sum.inr ++ (first :: rest.map Prod.snd).map Sum.inl).Perm
      (woven first rest) := by
  rw [woven, List.map_cons]
  refine List.perm_middle.trans (.cons _ ?_)
  induction rest with
  | nil => exact .nil
  | cons pair rest ih =>
      rw [List.map_cons, List.map_cons, List.map_cons, List.map_cons, List.cons_append,
        List.flatMap_cons]
      exact .cons _ (List.perm_middle.trans (.cons _ ih))

/-- When the starts are strictly increasing along the source text, the pieces are arranged in its order,
however the literal stretches and the expressions are listed. -/
theorem arranged_eq_woven {first : Quasi} {rest : List (Node × Quasi)} {quasis : List Quasi}
    {expressions : List Node}
    (increasing : ((woven first rest).map pieceStart).Pairwise (· < ·))
    (literals : quasis.Perm (first :: rest.map Prod.snd))
    (inner : expressions.Perm (rest.map Prod.fst)) :
    arranged quasis expressions = woven first rest := by
  have perm : (arranged quasis expressions).Perm (woven first rest) :=
    (List.mergeSort_perm _ _).trans
      (((inner.map Sum.inr).append (literals.map Sum.inl)).trans (perm_woven first rest))
  have distinct : ((woven first rest).map pieceStart).Nodup :=
    increasing.imp fun before => UInt64.ne_of_lt before
  have sorted : (arranged quasis expressions).Pairwise fun piece other =>
      pieceStart piece ≤ pieceStart other := by
    have trans (piece other third : Quasi ⊕ Node) :
        decide (pieceStart piece ≤ pieceStart other) →
          decide (pieceStart other ≤ pieceStart third) →
            decide (pieceStart piece ≤ pieceStart third) := by
      simpa using UInt64.le_trans
    have total (piece other : Quasi ⊕ Node) :
        decide (pieceStart piece ≤ pieceStart other) ||
          decide (pieceStart other ≤ pieceStart piece) := by
      simpa using UInt64.le_total (pieceStart piece) (pieceStart other)
    exact (List.pairwise_mergeSort trans total _).imp of_decide_eq_true
  refine List.Perm.eq_of_pairwise ?_ sorted ?_ perm
  · intro piece other mem otherMem before after
    exact List.inj_on_of_nodup_map distinct (perm.subset mem) otherMem
      (UInt64.le_antisymm before after)
  · exact (List.pairwise_map.mp increasing).imp UInt64.le_of_lt

/-- Texts that are joined with nothing between them. -/
theorem join_pieces (text : String) (rest : List String) :
    Text.join "" (text :: rest) = text ++ Text.join "" rest := by
  cases rest with
  | nil => simp [Text.join]
  | cons next others => rw [Text.join_cons text (List.cons_ne_nil next others), String.append_empty]

theorem spelled_woven (text : Node → String) (first : Quasi) (rest : List (Node × Quasi)) :
    spelled text (woven first rest) =
      "\x60" ++ first.raw ++
        Text.join "" (rest.map fun pair => "$\x7b" ++ text pair.1 ++ "\x7d" ++ pair.2.raw) ++
          "\x60" := by
  have pieces : Text.join "" ((rest.flatMap fun pair => [Sum.inr pair.1, Sum.inl pair.2]).map
      (pieceText text)) =
        Text.join "" (rest.map fun pair => "$\x7b" ++ text pair.1 ++ "\x7d" ++ pair.2.raw) := by
    induction rest with
    | nil => rfl
    | cons pair rest ih =>
        rw [List.flatMap_cons, List.map_append, List.map_cons, List.map_cons, List.map_nil,
          List.cons_append, List.cons_append, List.nil_append, join_pieces, join_pieces, ih,
          List.map_cons, join_pieces]
        simp only [pieceText, String.append_assoc]
  rw [spelled, woven, List.map_cons, join_pieces, pieces, pieceText]
  simp only [String.append_assoc]

end Node

/-! ### Templates and the walk -/

namespace Rules

variable (rules : Rules)

/-- What stands in the place of a node starts and ends where the node does. -/
theorem span_visit (position : Position) (node : Node) :
    (rules.visit position node).value.span = node.span := by
  rw [value_visit]
  split <;> rfl

theorem value_visit_template {position : Position} (walked : position ≠ .kept) (span : Span)
    (quasis : List Quasi) (expressions : List Node) :
    (rules.visit position ⟨span, .template quasis expressions⟩).value =
      ⟨span, .template quasis (expressions.map fun expression =>
        (rules.visit .read expression).value)⟩ := by
  rw [visit_of_ne_kept rules walked, Walker.visitKind, Traced.value_map, value_visitList]

end Rules

/-- A template whose pieces start one after the other, a literal stretch at either end and one after every
expression, is spelled in that order between backticks, however its literal stretches and its
expressions are arranged. And whatever a template looks like, the walk over it keeps the order of its
pieces: it is spelled as before, with what the walk makes of every expression in the place of the
expression. -/
theorem templates_follow_source_order :
    (∀ (first : Quasi) (rest : List (Node × Quasi)),
      ((Node.woven first rest).map Node.pieceStart).Pairwise (· < ·) →
        ∀ (span : Span) (quasis : List Quasi) (expressions : List Node),
          quasis.Perm (first :: rest.map Prod.snd) → expressions.Perm (rest.map Prod.fst) →
            Node.canonicalText ⟨span, .template quasis expressions⟩ =
              "\x60" ++ first.raw ++
                Text.join "" (rest.map fun pair =>
                  "$\x7b" ++ pair.1.canonicalText ++ "\x7d" ++ pair.2.raw) ++ "\x60") ∧
      ∀ (rules : Rules) (position : Position), position ≠ .kept →
        ∀ (span : Span) (quasis : List Quasi) (expressions : List Node),
          Node.canonicalText ⟨span, .template quasis expressions⟩ =
              Node.spelled Node.canonicalText (Node.arranged quasis expressions) ∧
            (rules.visit position ⟨span, .template quasis expressions⟩).value.canonicalText =
              Node.spelled (fun expression => (rules.visit .read expression).value.canonicalText)
                (Node.arranged quasis expressions) := by
  constructor
  · intro first rest increasing span quasis expressions literals inner
    rw [Node.canonicalText_template, Node.arranged_eq_woven increasing literals inner,
      Node.spelled_woven]
  · intro rules position walked span quasis expressions
    refine ⟨Node.canonicalText_template span quasis expressions, ?_⟩
    have starts : ∀ expression ∈ expressions,
        (rules.visit .read expression).value.span = expression.span :=
      fun expression _ => rules.span_visit .read expression
    rw [rules.value_visit_template walked, Node.canonicalText_template,
      Node.arranged_map quasis starts, Node.spelled_map]

namespace Sample

/-- The first literal stretch of a template. -/
def opening : Quasi := ⟨"a", ⟨1, 2⟩⟩

/-- The expressions `DEBUG` and `x` of a template, and the literal stretches after them. -/
def inserts : List (Node × Quasi) :=
  [(⟨⟨4, 9⟩, .identifier "DEBUG"⟩, ⟨"b", ⟨10, 11⟩⟩),
    (⟨⟨13, 14⟩, .identifier "x"⟩, ⟨"c", ⟨15, 16⟩⟩)]

/-- The literal stretches of the template, the last one first. -/
def reversedStretches : List Quasi := (opening :: inserts.map Prod.snd).reverse

/-- The expressions of the template, the last one first. -/
def reversedInserts : List Node := (inserts.map Prod.fst).reverse

end Sample

/-- The template is spelled in the order of its source text, before the walk and after it. -/
theorem sample_follows_source_order :
    ((Node.woven Sample.opening Sample.inserts).map Node.pieceStart).Pairwise (· < ·) ∧
      Node.canonicalText ⟨⟨0, 17⟩, .template Sample.reversedStretches Sample.reversedInserts⟩ =
        "\x60a$\x7bDEBUG\x7db$\x7bx\x7dc\x60" ∧
      ((Sample.rulesFor "DEBUG").visit .read ⟨⟨0, 17⟩, .template Sample.reversedStretches
        Sample.reversedInserts⟩).value.canonicalText =
          "\x60a$\x7btrue\x7db$\x7bx\x7dc\x60" := by
  have increasing : ((Node.woven Sample.opening Sample.inserts).map Node.pieceStart).Pairwise
      (· < ·) := by
    decide
  have literals : Sample.reversedStretches.Perm (Sample.opening :: Sample.inserts.map Prod.snd) :=
    List.reverse_perm _
  have inner : Sample.reversedInserts.Perm (Sample.inserts.map Prod.fst) := List.reverse_perm _
  obtain ⟨ordered, kept⟩ := templates_follow_source_order
  refine ⟨increasing, ordered _ _ increasing _ _ _ literals inner, ?_⟩
  have walked := (kept (Sample.rulesFor "DEBUG") .read (by decide) ⟨0, 17⟩
    Sample.reversedStretches Sample.reversedInserts).2
  rw [Node.arranged_eq_woven increasing literals inner, Node.spelled_woven] at walked
  exact walked

end Imprint
