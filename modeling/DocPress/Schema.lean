import DocPress.Node

/-!
# The built-in tags

Three tags have a meaning: a list whose items are numbered, an item of it,
and the inclusion of a partial document. Every other tag is transparent.
Two function names stand for the look-up of an item's number.
-/

set_option autoImplicit false

namespace DocPress.Schema

def listTag : String := "ol"

def itemTag : String := "li"

def partialTag : String := "partial"

def referenceFunctions : List String := ["ref", "liRef"]

structure Tag where
  name : String
  attributes : List String
  required : List String
  hasContent : Bool
  deriving Repr, DecidableEq

def tags : List Tag :=
  [⟨listTag, ["id"], [], true⟩, ⟨itemTag, ["id", "cl"], [], true⟩,
    ⟨partialTag, ["file"], ["file"], false⟩]

def find? (name : String) : Option Tag := tags.find? (·.name == name)

end DocPress.Schema
