import Interaction.Document.Schema
/-!
Loaders, and the lists of rules that they decide by. Lists are kept at places, so that
tables may share them, and a loader without a table of its own uses that of another one.
-/

namespace Interaction.Document

inductive Loader where
  | basic
  | config
  | model
  deriving DecidableEq

/-- The places of lists of rules, by the fronts that they are about. -/
abbrev Table := List (Front × Nat)

structure Loaders where
  lists : List (List Rule) := []
  /-- The tables of the loaders that have their own. -/
  tables : List (Loader × Table) := []

namespace Loaders

/-- A loader and those that it goes back to. -/
def line : Loader → List Loader
  | .basic => [.basic]
  | .config => [.config, .basic]
  | .model => [.model, .config, .basic]

def table (l : Loaders) (loader : Loader) : Table :=
  ((line loader).findSome? fun loader => l.tables.lookup loader).getD []

def list (l : Loaders) (place : Nat) : List Rule :=
  l.lists[place]?.getD []

/-- The rules that a table leads to. -/
def rulesOf (l : Loaders) (table : Table) : Schema := fun front =>
  match table.lookup front with
  | some place => l.list place
  | none => []

def rules (l : Loaders) (loader : Loader) : Schema :=
  l.rulesOf (l.table loader)

def assign (l : Loaders) (loader : Loader) (table : Table) : Loaders :=
  { l with tables := (loader, table) :: l.tables }

def newList (l : Loaders) (rules : List Rule) : Loaders × Nat :=
  ({ l with lists := l.lists ++ [rules] }, l.lists.length)

/-- New lists for all that a table leads to, made from the old ones. -/
def copy (l : Loaders) (change : List Rule → List Rule) : Table → Loaders × Table
  | [] => (l, [])
  | (front, place) :: rest =>
    let (l, new) := l.newList (change (l.list place))
    let (l, copied) := copy l change rest
    (l, (front, new) :: copied)

/-- Gives a loader a table of its own, unless it has one. -/
def claim (l : Loaders) (loader : Loader) : Loaders :=
  match l.tables.lookup loader with
  | some _ => l
  | none =>
    let (l, copied) := l.copy id (l.table loader)
    l.assign loader copied

/-- Adds a rule at the end of the list for a front. -/
def enter (loader : Loader) (rule : Rule) (l : Loaders) (front : Front) : Loaders :=
  match (l.table loader).lookup front with
  | some place => { l with lists := l.lists.modify place (· ++ [rule]) }
  | none =>
    let (l, place) := l.newList [rule]
    l.assign loader (l.table loader ++ [(front, place)])

/-- Adds a rule to the lists of a loader, without touching those of others. -/
def add (l : Loaders) (loader : Loader) (rule : Rule) (fronts : List Front) : Loaders :=
  fronts.foldl (enter loader rule) (l.claim loader)

def standard : Loaders :=
  Schema.standard.foldl (fun l (rule, fronts) => l.add .basic rule fronts) {}

/-- Gives the loader of models rules of its own: words such as `on` are texts. -/
def withModel (l : Loaders) : Loaders :=
  let (l, table) := l.copy (·.filter (·.tag ≠ "bool")) (l.table .config)
  (l.assign .model table).add .model
    (Schema.boolRule ["true", "True", "TRUE", "false", "False", "FALSE"]) (Schema.fronts "tTfF")

end Loaders

def loaders : Loaders :=
  Loaders.standard.withModel

def Schema.config : Schema :=
  loaders.rules .config

def Schema.model : Schema :=
  loaders.rules .model

end Interaction.Document
