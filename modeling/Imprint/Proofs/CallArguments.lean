/-
Module: Imprint.Proofs.CallArguments
Purpose: The arguments of a call whose callee is no identifier. Each of them is walked over on its own,
  apart from an identifier that is spelled like the canonical text of the callee. That text is lossy, so
  there are such callees; for ordinary names they are few, and a member is among them only when its
  object has no text.
Main exports: Node.memberText_of_plain, Rules.value_visit_call, arguments_visited_one_by_one,
  argument_spelled_like_callee_stays
-/
import Imprint.Proofs.ChainSpelling

namespace Imprint

/-! ### Texts without dots and delimiters -/

/-- A text with neither a dot nor a delimiter in it, as names of variables are. -/
def Text.IsPlain (text : String) : Prop := ∀ c ∈ text.toList, c ∉ '.' :: delimiters

-- The search for an instance could run over all characters instead of those of the text.
instance (text : String) : Decidable (Text.IsPlain text) :=
  List.decidableBAll (fun c => c ∉ '.' :: Text.delimiters) text.toList

namespace Text.IsPlain

variable {text : String}

theorem not_mem (plain : IsPlain text) {c : Char} (mem : c ∈ '.' :: delimiters) :
    c ∉ text.toList :=
  fun inside => plain c inside mem

theorem isDotted (plain : IsPlain text) : IsDotted text := by
  constructor
  · intro c inside mem
    exact plain c inside (List.mem_cons_of_mem '.' mem)
  · intro dots
    exact plain.not_mem List.mem_cons_self (dots.subset List.mem_cons_self)

end Text.IsPlain

/-- The text of a member is plain only when its object has no text and its property is no member. -/
theorem Node.memberText_of_plain {ownerText partText : String} {partIsMember : Bool}
    (plain : Text.IsPlain (memberText ownerText partText partIsMember)) :
    partIsMember = false ∧ ownerText = "" ∧
      memberText ownerText partText partIsMember = partText := by
  unfold memberText at plain ⊢
  cases partIsMember with
  | true => exact absurd (by simp) (plain.not_mem (c := '[') (by decide))
  | false =>
      by_cases empty : ownerText.isEmpty
      · exact ⟨rfl, by simpa using empty, by simp [empty]⟩
      · rw [if_neg (by decide), if_neg empty] at plain
        exact absurd (by simp) (plain.not_mem (c := '.') List.mem_cons_self)

/-! ### Arguments -/

namespace Rules

variable (rules : Rules)

/-- A call whose callee is no identifier stays a call. -/
theorem value_visit_call {callee : Node} (other : callee.identifier? = none) (span : Span)
    (arguments : List Node) :
    (rules.visit .read ⟨span, .call callee arguments⟩).value =
      ⟨span, .call (rules.visit .read callee).value (arguments.map fun argument =>
        (rules.visit (.argument callee.canonicalText argument) argument).value)⟩ := by
  have stays : rules.replacement? .read ⟨span, .call callee arguments⟩ = none := by
    simp [replacement?, callLiteral?, versionCall?, other]
  have read : Position.callee callee = .read := by simp [Position.callee, other]
  rw [value_visit, stays]
  simp [rebuilt, Node.places, Kind.placed, Kind.map, read, Function.comp_def]

/-- An argument that is spelled like the callee stays, and every other one is read. -/
theorem value_visit_argument (calleeText : String) (argument : Node) :
    (rules.visit (.argument calleeText argument) argument).value =
      if argument.identifier? = some calleeText then argument
      else (rules.visit .read argument).value := by
  unfold Position.argument
  split
  · rw [visit_kept]
    rfl
  · rfl

end Rules

/-- When the callee of a call is no identifier, the arguments are walked over one by one, each on its
own, except for identifiers that are spelled like the text of the callee, which stay. A callee with
the text of an ordinary name is flat, and if it is a member, its object has no text and its property is
no member and has the text of that name. -/
theorem arguments_visited_one_by_one (rules : Rules) {callee : Node}
    (other : callee.identifier? = none) (span : Span) (arguments : List Node) :
    (rules.visit .read ⟨span, .call callee arguments⟩).value =
        ⟨span, .call (rules.visit .read callee).value (arguments.map fun argument =>
          if argument.identifier? = some callee.canonicalText then argument
          else (rules.visit .read argument).value)⟩ ∧
      (Text.IsPlain callee.canonicalText →
        callee.Flat ∧ ∀ inner owner part computed,
          callee = ⟨inner, .member owner part computed⟩ →
            owner.canonicalText = "" ∧ part.isMember = false ∧
              part.canonicalText = callee.canonicalText) := by
  constructor
  · rw [rules.value_visit_call other]
    simp only [rules.value_visit_argument]
  · intro plain
    refine ⟨Node.flat_of_isDotted callee plain.isDotted, ?_⟩
    rintro inner owner part computed rfl
    rw [Node.canonicalText, Node.kindText] at plain ⊢
    obtain ⟨ends, empty, text⟩ := Node.memberText_of_plain plain
    exact ⟨empty, ends, text.symm⟩

namespace Sample

/-- The source tree of `(x = y).DEBUG`. -/
def assignedCallee : Node :=
  ⟨⟨0, 13⟩, .member
    ⟨⟨1, 6⟩, .assignment "=" ⟨⟨1, 2⟩, .identifier "x"⟩ ⟨⟨5, 6⟩, .identifier "y"⟩⟩
    ⟨⟨8, 13⟩, .identifier "DEBUG"⟩ false⟩

/-- The source tree of `DEBUG`, passed to that callee. -/
def spelledArgument : Node := ⟨⟨14, 19⟩, .identifier "DEBUG"⟩

/-- The source tree of `[DEBUG]`, passed after it. -/
def wrappedArgument : Node := ⟨⟨21, 28⟩, .array [some ⟨⟨22, 27⟩, .identifier "DEBUG"⟩]⟩

end Sample

/-- In `(x = y).DEBUG(DEBUG, [DEBUG])` the second argument is walked over, and the first one is not. -/
theorem sample_arguments_visited :
    Sample.assignedCallee.identifier? = none ∧
      ((Sample.rulesFor "DEBUG").visit .read ⟨⟨0, 29⟩,
        .call Sample.assignedCallee [Sample.spelledArgument, Sample.wrappedArgument]⟩).value =
          ⟨⟨0, 29⟩, .call Sample.assignedCallee [Sample.spelledArgument,
            ⟨⟨21, 28⟩, .array [some ((Node.boolean true).withSpan ⟨22, 27⟩)]⟩]⟩ ∧
      Sample.assignedCallee.Flat := by
  have other : Sample.assignedCallee.identifier? = none := rfl
  obtain ⟨value, texts⟩ := arguments_visited_one_by_one (Sample.rulesFor "DEBUG") other ⟨0, 29⟩
    [Sample.spelledArgument, Sample.wrappedArgument]
  refine ⟨other, value.trans ?_, (texts ?_).1⟩
  · rfl
  · decide +kernel

/-- Not every argument of such a call is walked over on its own: in `(x = y).DEBUG(DEBUG)` the argument
stays, although a literal is defined for its name. -/
theorem argument_spelled_like_callee_stays :
    ¬ ∀ (settings : Settings) (constants : Constants) (clock : Int)
      (versions : List (String × Option String)) (span : Span) (callee : Node)
      (arguments : List Node), callee.identifier? = none →
        ((Rules.ofSettings settings constants clock versions).visit .read
            ⟨span, .call callee arguments⟩).value =
          ⟨span, .call ((Rules.ofSettings settings constants clock versions).visit .read callee).value
            (arguments.map fun argument =>
              ((Rules.ofSettings settings constants clock versions).visit .read argument).value)⟩ := by
  intro each
  have same := each (Settings.initial.withDefine "DEBUG" (.bool true)) (.outside "") 0 [] ⟨0, 20⟩
    Sample.assignedCallee [Sample.spelledArgument] rfl
  have texts := congrArg Node.canonicalText same
  exact absurd texts (by decide +kernel)

end Imprint
