import CodeAssist.Disk.Path

/-!
The keys under which a project keeps its files.

An editor names files in many ways. The key is the path from the root of the project, its names
separated by slashes; a backslash counts as a slash, and steps upwards are ignored.
-/

namespace CodeAssist

def slashed (name : String) : String :=
  name.map fun c => if c == '\\' then '/' else c

/-- The names of a path from the root, if it leads there, and else all its names. -/
def belowRoot (root : List String) (p : Path) : List String :=
  if p.absolute && root.isPrefixOf p.parts then p.parts.drop root.length else p.parts

/-- `relative_key`: the key of a path that an editor sends. It is empty when the path names the root
itself. -/
def fileKey (root : List String) (text : String) : String :=
  let names := (belowRoot root (Path.ofText text)).filter (· != Path.parent)
  "/".intercalate (names.map slashed)

end CodeAssist
