/-
Module: Imprint.Substitution
Purpose: Imprinting constants on the tree of a file. The walk writes down every name that it replaces
  and looks up a package where it asks for its version. The first lookup that fails ends it; what was
  loaded until then stays remembered.
Main exports: Imprinted, Imprinting, Imprinted.walker, Imprinted.ofTree
-/
import Imprint.Substitution.Report
import Imprint.Substitution.Walk

namespace Imprint

/-- A tree with constants imprinted on it, and the report on them. -/
structure Imprinted where
  root : Node
  report : Report
deriving Repr

/-- A step of a walk: it goes on from the names that were replaced so far, can load manifests, which are
remembered, and can fail. -/
abbrev Imprinting := StateT (List String) (ExceptT LookupError (StateM Memo))

/-- A lookup on the way. -/
def Imprinting.ofLookup {α : Type} (lookup : Memo → Lookup α) : Imprinting α :=
  StateT.lift (ExceptT.mk lookup)

namespace Imprinted

/-- The walker over the tree of a file with the given constants. A package without a version has an
empty one. -/
def walker (host : Host) (settings : Settings) (constants : Constants) (file : Path) :
    Walker Imprinting where
  literal? := Rules.lookup settings constants host.clock
  bareCall? := Rules.builtIn? settings constants host.clock .packageVersion
  replaced name := modify fun names => names ++ [name]
  version package := do
    let manifest? ← .ofLookup fun memo =>
      Manifest.ofPackage host settings.manifestFile memo package file
    return (manifest?.bind Manifest.version).getD ""

/-- The imprinted tree of a file with the given constants. -/
def ofTree (host : Host) (settings : Settings) (memo : Memo) (constants : Constants) (file : Path)
    (root : Node) : Lookup Imprinted :=
  match ((walker host settings constants file).visit .read root).run [] |>.run memo with
  | (.error error, memo) => (.error error, memo)
  | (.ok (root, names), memo) => (.ok ⟨root, .ofNames names⟩, memo)

end Imprinted

end Imprint
