/-
This file holds the relationships between the parts of a project: who imports, depends on,
inherits from and calls whom, and where each name is defined.
-/

import CodeAtlas.Graph.Index

namespace CodeAtlas

/-- The relationships between the parts of a project. -/
structure Relationships where
  /-- For each file the modules that it imports. -/
  imports : Index (List String)
  /-- For each file the files that it depends on. -/
  dependencies : Index TextSet
  /-- For each class the names of its bases. -/
  inheritance : Index (List String)
  /-- For each function the names that it calls. -/
  calls : Index (List String)
  /-- For each name of a function or method the files that define it. -/
  functionIndex : Index (List String)
  /-- For each name of a class the files that define it. -/
  classIndex : Index (List String)

namespace Relationships

/-- The files that a file depends on. -/
def dependenciesOf (relationships : Relationships) (path : String) : List String :=
  ((relationships.dependencies.get? path).map TextSet.toList).getD []

/-- The number of pairs of files of which one depends on the other. -/
def dependencyCount (relationships : Relationships) : Nat :=
  (relationships.dependencies.values.map TextSet.size).foldr (· + ·) 0

/-- Whether some function, method or class has a name. -/
def isKnownName (relationships : Relationships) (name : String) : Bool :=
  relationships.functionIndex.hasKey name || relationships.classIndex.hasKey name

/-- Whether one text stands somewhere in another. -/
def stands (part text : String) : Bool :=
  Text.occursIn part.toList text.toList

/-- Whether a called name is one of the project: a name of the project itself, or a part of the
name of a function or of a method with its class. The callers that are named by their file do
not count, so that paths take no part in this. -/
def isInternalCallee (relationships : Relationships) (callee : String) : Bool :=
  relationships.isKnownName callee ||
    relationships.functionIndex.keys.any (stands callee) ||
    (relationships.calls.keys.filter fun caller => !stands "::" caller).any (stands callee)

/-- The calls of names of the project. Callers without such calls are left out. -/
def internalCalls (relationships : Relationships) : Index (List String) :=
  relationships.calls.filterMap fun callees =>
    match callees.filter relationships.isInternalCallee with
    | [] => none
    | kept => some kept

end Relationships

end CodeAtlas
