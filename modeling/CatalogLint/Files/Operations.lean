import CatalogLint.Files.Tree

/-!
# File operations

The system changes one directory at a time. What it has done stays done, also if it refuses what
comes next.

* `FileM`: operations one after the other, with the tree that they leave, in failure too.
* `Operation`, `FileTree.change`: what may be done to the entries of a directory.
* `FileTree.makeDirectories`: makes directories, one by one.
-/

namespace CatalogLint

/-- What the system refuses, and the words for it. -/
structure Refusal where
  kind : PathError
  text : String

/-- Operations one after the other. -/
abbrev FileM := EStateM Refusal FileTree

/-- What may be done to the entries of a directory. -/
abbrev Operation := Table FileTree → Except PathError (Table FileTree)

namespace Operation

/-- Adds an entry under a name that is not taken. -/
def add (name : String) (t : FileTree) : Operation := fun es =>
  if (es.lookup name).isSome then .error .fileExists else .ok (Table.set name t es)

/-- Writes a file, in the place of an old one if there is one. -/
def write (name : String) (bytes : List UInt8) : Operation := fun es =>
  match es.lookup name with
  | some (.dir _) => .error .isDirectory
  | _ => .ok (Table.set name (.file bytes) es)

/-- Gives a file another name, under which no directory may stand. -/
def move (name name' : String) : Operation := fun es =>
  match es.lookup name, es.lookup name' with
  | none, _ => .error .notFound
  | some (.dir _), _ => .error .isDirectory
  | _, some (.dir _) => .error .isDirectory
  | some (.file bytes), _ => .ok (Table.erase name (Table.set name' (.file bytes) es))

/-- Takes out a file. -/
def remove (name : String) : Operation := fun es =>
  match es.lookup name with
  | none => .error .notFound
  | some (.dir _) => .error .isDirectory
  | some (.file _) => .ok (Table.erase name es)

end Operation

namespace FileTree

/-- Does something to the entries of a directory. -/
def change (here : List String) (tell : PathError → String) (op : Operation) : FileM Unit := do
  match (← get).get? here with
  | some (dir es) =>
    match op es with
    | .ok es' => modify (put (dir es') here)
    | .error e => throw ⟨e, tell e⟩
  | some (file _) => throw ⟨.notDirectory, tell .notDirectory⟩
  | none => throw ⟨.notFound, tell .notFound⟩

/-- Makes the directories on the way to a list of names, and that one itself. `done` are the
names that lead to a directory already. -/
def makeDirectories (done : List String) : List String → FileM Unit
  | [] => pure ()
  | name :: rest => do
    let here := done ++ [name]
    let tell e := PathError.message e (pathText (done ++ name :: rest))
    match (← get).get? here with
    | some (dir _) => makeDirectories here rest
    | some (file _) =>
      let e := if rest.isEmpty then PathError.fileExists else .notDirectory
      throw ⟨e, tell e⟩
    | none =>
      change done tell (.add name (dir []))
      makeDirectories here rest

end FileTree

end CatalogLint
