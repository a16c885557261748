import DocPress.Text.Blank
import DocPress.Path

/-!
# Ignored paths

An entry names a path below the templates literally: it stands for that path
and everything below it. Backslashes count as slashes, and slashes or one
leading `./` around an entry mean nothing. An entry of blanks between slashes
stands for no path, but makes the list a list.
-/

set_option autoImplicit false

namespace DocPress

abbrev Ignore := List String

namespace Ignore

open Text

def isSlash (c : Char) : Bool := c == '/'

def trimSlashes (s : List Char) : List Char :=
  ((s.dropWhile isSlash).reverse.dropWhile isSlash).reverse

def entry? (s : String) : Option String :=
  let plain := (strip s.toList).map fun c => if c = '\\' then '/' else c
  let plain := if ['.', '/'].isPrefixOf plain then plain.drop 2 else plain
  let plain := trimSlashes plain
  if plain.isEmpty then none else some (String.ofList (stripRight plain))

def ofEntries (entries : List String) : Ignore := entries.filterMap entry?

def covers (entry path : String) : Bool :=
  entry != "" && (path == entry || (entry.toList ++ ['/']).isPrefixOf path.toList)

def contains (ignore : Ignore) (names : List String) : Bool :=
  let path := Path.toString ⟨.relative, names⟩
  ignore.any fun entry => covers entry path

end Ignore

end DocPress
