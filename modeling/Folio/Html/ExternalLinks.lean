import Folio.Html.Node
import Folio.Url.Split

set_option autoImplicit false

/-! # External links

A link that leads off the site opens in the given target and does not tell where the reader came
from. Both attributes are always written together, and no other link is touched. -/

namespace Folio.Html

/-- What an external link says about its relation to the page. -/
def externalRelation : String := "noopener noreferrer"

/-- Mark the attributes of a link if it leads off the site. -/
def markExternal (target : String) (internalHosts : List String)
    (attributes : List (String × String)) : Except Url.UrlError (List (String × String)) :=
  match attribute? attributes "href" with
  | none => .ok attributes
  | some href => do
    if ← Url.isExternal href internalHosts then
      return setAttribute "rel" externalRelation (setAttribute "target" target attributes)
    else return attributes

mutual

/-- Mark the external links of a node. -/
def Node.markLinks (target : String) (internalHosts : List String) :
    Node → Except Url.UrlError Node
  | .element name attributes children => do
    let attributes ← if name = "a" then markExternal target internalHosts attributes
      else pure attributes
    let children ← markLinksList target internalHosts children
    return .element name attributes children
  | node => .ok node

/-- Mark the external links of a document. The first URL that is refused stops the walk. -/
def markLinksList (target : String) (internalHosts : List String) :
    Forest → Except Url.UrlError Forest
  | [] => .ok []
  | node :: rest => do
    let node ← node.markLinks target internalHosts
    let rest ← markLinksList target internalHosts rest
    return node :: rest

end

end Folio.Html
