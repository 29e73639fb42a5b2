/-
  Highlighting/Output/Listing.lean
  ================================
  **The token listing**: one line for each token at the top, with its
  category and its quoted text.
-/
import Highlighting.Tree
import Highlighting.Text.Quoted

namespace Highlighting.Output.Listing

def line (t : Token) : String := t.category ++ "\t" ++ Quoted.encode t.text ++ "\n"

def render (h : Highlighted) : String := String.join (h.tokens.map line)

end Highlighting.Output.Listing
