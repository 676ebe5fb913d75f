/-!
# Joining paths

A path names a file, its directories separated by slashes.  Joining puts a
name under a directory, unless the name starts at the root.
-/

namespace NetRun.Path

/-- The path starts at the root. -/
def isAbsolute
    (path : String) :
    Bool :=
  path.toList.head? == some '/'

/-- The path of a name under a directory; no directory adds nothing. -/
def join
    (directory name : String) :
    String :=
  if isAbsolute name then name
  else if directory.isEmpty || directory.toList.getLast? == some '/' then directory ++ name
  else directory ++ "/" ++ name

end NetRun.Path
