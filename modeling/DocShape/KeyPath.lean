/-!
# Key paths

The text that names a place in a document: field names joined by dots, array
items by their index in brackets. A declaration names all items of an array at
once by empty brackets.
-/

set_option autoImplicit false

namespace DocShape.KeyPath

/-- No dot follows an empty path. -/
def join (path name : String) : String :=
  if path.isEmpty then name else path ++ "." ++ name

def item (path : String) (index : Nat) : String :=
  path ++ "[" ++ toString index ++ "]"

def anyItem (path : String) : String :=
  path ++ "[]"

/-- Names the document as a whole where no other name is given. -/
def root : String := "$root"

/-- Names a schema definition as a whole. -/
def definition : String := "$definition"

end DocShape.KeyPath
