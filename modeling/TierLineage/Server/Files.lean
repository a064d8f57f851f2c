/-!
# Files

The texts of files by their paths.  A path that leads to files is a directory; directories can be
made wherever no file is in the way.
-/

namespace TierLineage.Server

/-- Texts by path. -/
abbrev Files := List (String × String)

/-- Why a path cannot be used. -/
inductive PathFault where
  | missing
  | occupied
  | notDirectory
  | isDirectory
  deriving Repr, DecidableEq

/-- The wording of a fault. -/
def PathFault.message : PathFault → String
  | missing => "No such file or directory (os error 2)"
  | occupied => "File exists (os error 17)"
  | notDirectory => "Not a directory (os error 20)"
  | isDirectory => "Is a directory (os error 21)"

namespace Files

/-- Whether one path lies below another. -/
def isBelow (path above : String) : Bool :=
  (above ++ "/").toList.isPrefixOf path.toList

/-- The text of a file. -/
def read (fs : Files) (path : String) : Except PathFault String :=
  match fs.lookup path with
  | some text => .ok text
  | none =>
    if fs.any fun f => isBelow path f.1 then .error .notDirectory
    else if fs.any fun f => isBelow f.1 path then .error .isDirectory
    else .error .missing

/-- Whether there can be a directory. -/
def makeDirectory (fs : Files) (path : String) : Except PathFault Unit :=
  if (fs.lookup path).isSome then .error .occupied
  else if fs.any fun f => isBelow path f.1 then .error .notDirectory
  else .ok ()

end Files

end TierLineage.Server
