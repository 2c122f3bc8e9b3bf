/-
Module: Imprint.Substitution.Traced
Purpose: Values together with what happened on the way to them, in order.
Main exports: Event, Traced, Traced.replacedNames, Traced.packages
-/
import Imprint.Node

namespace Imprint

/-- Something that happens during a walk: a name is replaced, or the version of a package is asked
for. -/
inductive Event where
  | replaced (name : String)
  | asked (package : String)
deriving DecidableEq, Repr

/-- A value, and what happened on the way to it. -/
structure Traced (α : Type) where
  value : α
  events : List Event
deriving Repr

namespace Traced

variable {α β : Type}

instance : Monad Traced where
  pure value := ⟨value, []⟩
  bind first next := ⟨(next first.value).value, first.events ++ (next first.value).events⟩

/-- A value after one event. -/
def after (event : Event) (value : α) : Traced α := ⟨value, [event]⟩

@[ext] theorem ext {first second : Traced α} (value : first.value = second.value)
    (events : first.events = second.events) : first = second := by
  obtain ⟨a, list⟩ := first
  obtain ⟨b, other⟩ := second
  obtain rfl : a = b := value
  obtain rfl : list = other := events
  rfl

@[simp] theorem value_pure (a : α) : (pure a : Traced α).value = a := rfl

@[simp] theorem events_pure (a : α) : (pure a : Traced α).events = [] := rfl

@[simp] theorem value_bind (first : Traced α) (next : α → Traced β) :
    (first >>= next).value = (next first.value).value := rfl

/-- What happens second is written behind what happened first. -/
@[simp] theorem events_bind (first : Traced α) (next : α → Traced β) :
    (first >>= next).events = first.events ++ (next first.value).events := rfl

@[simp] theorem value_map (f : α → β) (first : Traced α) :
    (f <$> first).value = f first.value := rfl

@[simp] theorem events_map (f : α → β) (first : Traced α) :
    (f <$> first).events = first.events := by
  change first.events ++ [] = first.events
  exact List.append_nil _

@[simp] theorem value_seq (f : Traced (α → β)) (first : Traced α) :
    (f <*> first).value = f.value first.value := rfl

@[simp] theorem events_seq (f : Traced (α → β)) (first : Traced α) :
    (f <*> first).events = f.events ++ first.events := by
  change f.events ++ (first.events ++ []) = f.events ++ first.events
  rw [List.append_nil]

/-- The replaced names, in order. -/
def replacedNames (traced : Traced α) : List String :=
  traced.events.filterMap fun event =>
    match event with
    | .replaced name => some name
    | .asked _ => none

/-- The packages whose versions were asked for, in order. -/
def packages (traced : Traced α) : List String :=
  traced.events.filterMap fun event =>
    match event with
    | .asked package => some package
    | .replaced _ => none

/-- A name was replaced exactly when its replacement happened. -/
theorem mem_replacedNames {traced : Traced α} {name : String} :
    name ∈ traced.replacedNames ↔ .replaced name ∈ traced.events := by
  rw [replacedNames, List.mem_filterMap]
  constructor
  · rintro ⟨event, mem, eq⟩
    cases event <;> cases eq
    exact mem
  · intro mem
    exact ⟨_, mem, rfl⟩

/-- A package was asked for exactly when the question for it happened. -/
theorem mem_packages {traced : Traced α} {package : String} :
    package ∈ traced.packages ↔ .asked package ∈ traced.events := by
  rw [packages, List.mem_filterMap]
  constructor
  · rintro ⟨event, mem, eq⟩
    cases event <;> cases eq
    exact mem
  · intro mem
    exact ⟨_, mem, rfl⟩

end Traced

end Imprint
