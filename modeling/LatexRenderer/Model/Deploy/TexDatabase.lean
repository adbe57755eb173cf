import LatexRenderer.Machine.Worklist
import LatexRenderer.Model.Deploy.LanAddress

/-! # The packages of a TeX mirror

A signed TeX Live database lists packages with their depend lines. A line names a package, an optional minimum
version or a setting, and `NAME.ARCH` stands for the programs of `NAME` for each architecture. The mirror takes
its roots and everything that they lead to, in a search that passes the architecture of the programs on.
-/

namespace LatexRenderer

open Machine

/-- An architecture that a mirror can serve. -/
inductive Architecture where
  | amd64
  | arm64
  deriving DecidableEq

def Architecture.arches : Architecture → Text
  | .amd64 => "x86_64-linux".toList
  | .arm64 => "aarch64-linux".toList

/-- A letter or a digit in a package name. -/
def packageStart (c : Char) : Bool := c.isAlphanum

/-- A later character of a package name. -/
def packageChar (c : Char) : Bool := packageStart c || c = '+' || c = '_' || c = '.' || c = '-'

def packageName : Text → Bool
  | [] => false
  | c :: rest => packageStart c && rest.all packageChar

/-- A package, as far as dependencies go. -/
structure TexPackage where
  name : Text
  depends : List Text
  deriving DecidableEq

/-- What `parse_tlpdb` returns: safe names, and one package for each. -/
structure TexDatabase where
  packages : List TexPackage
  named : ∀ package ∈ packages, packageName package.name = true
  distinct : (packages.map (·.name)).Nodup

def TexDatabase.get? (database : TexDatabase) (name : Text) : Option TexPackage :=
  database.packages.find? fun package => decide (package.name = name)

/-- White space, as `str.strip` takes it. -/
def pythonSpace (c : Char) : Bool :=
  (0x09 ≤ c.toNat && c.toNat ≤ 0x0d) || (0x1c ≤ c.toNat && c.toNat ≤ 0x20) || c.toNat = 0x85 || c.toNat = 0xa0 ||
    c.toNat = 0x1680 || (0x2000 ≤ c.toNat && c.toNat ≤ 0x200a) || c.toNat = 0x2028 || c.toNat = 0x2029 ||
    c.toNat = 0x202f || c.toNat = 0x205f || c.toNat = 0x3000

def strip (text : Text) : Text :=
  ((text.dropWhile pythonSpace).reverse.dropWhile pythonSpace).reverse

/-- The text before the first `>=`. -/
def beforeVersion? : Text → Option Text
  | '>' :: '=' :: _ => some []
  | c :: rest => (beforeVersion? rest).map (c :: ·)
  | [] => none

/-- What a depend line asks for. -/
inductive DependLine where
  | architectures (base : Text)
  | ignored
  | package (name : Text)
  deriving DecidableEq

/-- How `dependency_closure` reads a name. -/
def dependLine (line : Text) : DependLine :=
  if ".ARCH".toList.isSuffixOf line then .architectures (line.take (line.length - 5))
  -- Neither architecture is Windows.
  else if ".windows".toList.isSuffixOf line then .ignored
  else if "setting_available_architectures:".toList.isPrefixOf line ||
      "setting_available_architectures/".toList.isPrefixOf line then .ignored
  else match beforeVersion? line with
    | some name => .package (strip name)
    | none => .package line

/-- The programs of a package for an architecture. -/
def candidate (base : Text) (arch : Architecture) : Text := base ++ '.' :: arch.arches

/-- The architectures that `.ARCH` is expanded to. -/
def expansion (architectures : List Architecture) : Option Architecture → List Architecture
  | some inherited => [inherited]
  | none => architectures

/-- A name in the queue, with the architecture it inherits. -/
abbrev QueuedName : Type := Text × Option Architecture

/-- The existing programs of a package, as they are queued; the last one is taken first. -/
def candidates (database : TexDatabase) (architectures : List Architecture) (base : Text)
    (inherited : Option Architecture) : List QueuedName :=
  (((expansion architectures inherited).filter fun arch => (database.get? (candidate base arch)).isSome).map
    fun arch => (candidate base arch, some arch)).reverse

/-- One turn of the loop of `dependency_closure`. -/
def visitDependency (database : TexDatabase) (architectures : List Architecture) (item : QueuedName) :
    Visit Text Text QueuedName :=
  match dependLine item.1 with
  | .architectures base => .push (candidates database architectures base item.2)
  | .ignored => .skip
  | .package name =>
    match database.get? name with
    | some package => .mark name (package.depends.map fun line => (line, item.2)).reverse
    -- Virtual dependencies are settings.
    | none => if '/' ∈ name then .skip else .fail ("dependency is absent from signed tlpdb: ".toList ++ name)

/-- What an item can still bring before a package is met. -/
def dependencyWeight (architectures : List Architecture) (item : QueuedName) : Nat :=
  match dependLine item.1 with
  | .architectures _ => (expansion architectures item.2).length + 1
  | _ => 1

/-- What the depend lines of a package can bring. -/
def dependencyBudget (database : TexDatabase) (architectures : List Architecture) (name : Text) : Nat :=
  ((database.get? name).map fun package => package.depends.length * (architectures.length + 2)).getD 0

/-- The queue at the start; the last root is taken first. -/
def rootQueue (roots : List Text) : List QueuedName := (roots.map fun root => (root, none)).reverse

/-- Turns that are enough for the loop to end. -/
def dependencyTurns (database : TexDatabase) (architectures : List Architecture) (roots : List Text) : Nat :=
  capacity (dependencyWeight architectures) (dependencyBudget database architectures)
    (database.packages.map (·.name)) (rootQueue roots) [] + 1

/-- `dependency_closure`: the set as a list. -/
def dependencyClosure (database : TexDatabase) (roots : List Text) (architectures : List Architecture) :
    Option (Except Text (List Text)) :=
  search (visitDependency database architectures) (dependencyTurns database architectures roots) (rootQueue roots) []

end LatexRenderer
