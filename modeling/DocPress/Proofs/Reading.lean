import DocPress.Document.Reading

/-!
# Reading apart from its notices

The name of a source stands in the notices alone: the tree that is built from
a token stream, and so the document that is read, is the same under any name.
-/

set_option autoImplicit false

namespace DocPress.Document

namespace Builder

theorem closeContainer_name (a b : String) (kind : NodeKind) (x : Builder) :
    (closeContainer a kind x).1 = (closeContainer b kind x).1 := by
  unfold closeContainer
  split <;> rfl

theorem closeTag_name (a b name : String) (x : Builder) :
    (closeTag a name x).1 = (closeTag b name x).1 := by
  unfold closeTag
  split <;> rfl

theorem feedDirective_name (a b : String) (x : Builder) (d : Directive) :
    (feedDirective a x d).1 = (feedDirective b x d).1 := by
  cases d with
  | closing name => exact closeTag_name a b name x
  | _ => rfl

mutual

theorem feed_name (a b : String) (x : Builder) (t : Token) : (feed a x t).1 = (feed b x t).1 := by
  cases t with
  | closing kind => exact closeContainer_name a b kind x
  | directive d => exact feedDirective_name a b x d
  | inline ts => exact feedAll_name a b x ts
  | _ => rfl

theorem feedAll_name (a b : String) (x : Builder) (ts : List Token) :
    (feedAll a x ts).1 = (feedAll b x ts).1 := by
  cases ts with
  | nil => rfl
  | cons t ts =>
    rw [feedAll, feedAll]
    simp only [feed_name a b x t]
    exact feedAll_name a b _ ts

end

end Builder

theorem ofTokens_name (a b : String) (ts : List Token) : (ofTokens a ts).1 = (ofTokens b ts).1 := by
  simp only [ofTokens, Builder.finish, Builder.feedAll_name a b]

theorem read_name (a b source : String) : (read a source).result = (read b source).result := by
  unfold read
  dsimp only
  split
  · rfl
  · simp only [ofTokens_name a b]

end DocPress.Document
