import Opaal.Order.Entries
import Opaal.Runtime.ModuleGraph
import Opaal.Runtime.Scope

/-!
# Selections and re-exports

A module may select members of the modules it imports and export what it selected, under
other names at every step.  Each source has its table; a name is followed through them to
the module that defines it.
-/

namespace Opaal.Runtime

/-! ## Tables -/

structure ModuleAlias (Module : Type) where
  name : String
  importer : Module
  target : Module

structure ModuleAliasExport (Module : Type) where
  name : String
  target : Module

structure ModuleSelection (Module : Type) where
  name : String
  target : Module
  member : String
  localSpan : Syntax.Span

structure ExpandedExport where
  isPrefix : Bool

inductive ModuleNameError (Module : Type) where
  | duplicateExport (module : Module) (name : String)
  | unmatchedExportPrefix (module : Module) (spelling : String)
  | unknownExport (module : Module) (name : String)
  | reservedBinding (module : Module) (name : String)

structure ModuleAliases (Module : Type) where
  aliases : List (String × ModuleAlias Module)
  exports : List (String × ModuleAliasExport Module)
  selections : List (String × ModuleSelection Module)
  exportedNames : List (String × ExpandedExport)
  exportErrors : List (ModuleNameError Module)

/-- One table for every source. -/
structure ModuleAliasRegistry (Module : Type) where
  byModule : List (Module × ModuleAliases Module)

/-! ## Resolution -/

namespace ModuleAliasRegistry

variable {Module : Type} [DecidableEq Module]

def table (registry : ModuleAliasRegistry Module) (module : Module) : Option (ModuleAliases Module) :=
  registry.byModule.lookup module

def alias_ (registry : ModuleAliasRegistry Module) (module : Module) (name : String) : Option (ModuleAlias Module) :=
  (registry.table module).bind (·.aliases.lookup name)

def export_ (registry : ModuleAliasRegistry Module) (module : Module) (name : String) : Option (ModuleAliasExport Module) :=
  (registry.table module).bind (·.exports.lookup name)

def selection (registry : ModuleAliasRegistry Module) (module : Module) (name : String) : Option (ModuleSelection Module) :=
  (registry.table module).bind (·.selections.lookup name)

section Entities

variable (standardOperation : Module → String → Bool)

/-- The names that are left to follow, in so many steps. -/
def exportedEntityWithin (registry : ModuleAliasRegistry Module) : Nat → Module → String → Option (Module × String)
  | 0, _, _ => none
  | bound + 1, owner, member =>
    if standardOperation owner member then some (owner, member)
    else do
      let table ← registry.table owner
      let _ ← table.exportedNames.lookup member
      match table.selections.lookup member with
      | some selection => exportedEntityWithin registry bound selection.target selection.member
      | none => some (owner, member)

def exportedEntity (registry : ModuleAliasRegistry Module) (module : Module) (name : String) : Option (Module × String) :=
  registry.exportedEntityWithin standardOperation (registry.byModule.length + 1) module name

def selectedEntity (registry : ModuleAliasRegistry Module) (module : Module) (name : String) : Option (Module × String) := do
  let selection ← registry.selection module name
  registry.exportedEntity standardOperation selection.target selection.member

/-- A local alias, followed by aliases that are exported. -/
def resolve (registry : ModuleAliasRegistry Module) (module : Module) : List String → Option Module
  | [] => none
  | first :: rest => do
    let start ← registry.alias_ module first
    rest.foldlM (fun target segment => (registry.export_ target segment).map (·.target)) start.target

def resolveEntity (registry : ModuleAliasRegistry Module) (module : Module) (segments : List String) : Option (Module × String) := do
  let name ← segments.getLast?
  match segments.dropLast with
  | [] => (registry.selectedEntity standardOperation module name).or (some (module, name))
  | modules =>
    let owner ← registry.resolve module modules
    (registry.exportedEntity standardOperation owner name).or (some (owner, name))

end Entities

end ModuleAliasRegistry

end Opaal.Runtime
