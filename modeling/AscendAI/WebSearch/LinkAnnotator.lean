import AscendAI.Lib.HtmlTree
import AscendAI.Lib.OrderedDict
import AscendAI.Lib.UrlJoin

/-!
# The link annotator

The anchors of a page are collected once and then numbered one after the other: the text of an anchor is
replaced by itself with a marker, and the number is mapped to the absolute URL. The text of the page is
read at the end.
-/

namespace AscendAI.WebSearch
open PythonUrl PythonString
open HtmlForest (stripAndJoin)

/-- A parsed page. Its elements are different objects. -/
structure HtmlPage where
  nodes : HtmlForest
  nodup : nodes.ids.Nodup

def noiseTags : List String := ["script", "style", "nav", "footer", "iframe"]

def removeNoiseTags (page : HtmlPage) : HtmlForest := page.nodes.decompose noiseTags

def validSchemes : List String := ["http", "https"]

def skippedHrefPrefixes : List String := ["#", "mailto:", "tel:", "javascript:"]

/-- `LINK_MARKER_TEMPLATE` -/
def linkMarker (index : ℕ) : String := "[" ++ toString index ++ "]"

section Annotator

variable (u : UnicodeData) (baseUrl : String) (linkFilter : Option String)

def resolveAbsoluteUrl (href : String) : Except String String :=
  if href = "" ∨ skippedHrefPrefixes.any fun start => start.toList.isPrefixOf href.toList then .ok ""
  else
    match urljoin u baseUrl href with
    | .error e => .error e
    | .ok absolute =>
      match urlparse u absolute "" with
      | .error e => .error e
      | .ok parsed => if parsed.scheme ∈ validSchemes then .ok absolute else .ok ""

/-- `link_filter and link_filter not in absolute_url` does not hold. -/
def matchesFilter (absoluteUrl : String) : Bool :=
  match linkFilter with
  | none => true
  | some wanted => wanted = "" || PythonString.contains absoluteUrl wanted

/-- `find_all("a", href=True)` -/
def findAnchors (soup : HtmlForest) : List (HtmlElement × String) :=
  soup.elements.filterMap fun e => if e.name = "a" then (e.attrs.lookup "href").map fun href => (e, href) else none

/-- The strings that have been assigned to elements so far, the map and the next number. -/
structure Annotation where
  assigned : OrderedDict ℕ String := .empty
  linkMap : OrderedDict ℕ String := .empty
  linkIndex : ℕ := 1

/-- One round of the loop. -/
def annotateAnchor (s : Annotation) (anchor : HtmlElement) (href : String) : Except String Annotation :=
  match resolveAbsoluteUrl u baseUrl href with
  | .error e => .error e
  | .ok absoluteUrl =>
    if absoluteUrl = "" then .ok s
    else if ¬matchesFilter linkFilter absoluteUrl then .ok s
    else
      let text := stripAndJoin "" (anchor.strings s.assigned.get?)
      .ok {
        assigned := s.assigned.set anchor.id (text ++ " " ++ linkMarker s.linkIndex)
        linkMap := s.linkMap.set s.linkIndex absoluteUrl
        linkIndex := s.linkIndex + 1 }

def annotateAnchors : Annotation → List (HtmlElement × String) → Except String Annotation
  | s, [] => .ok s
  | s, (anchor, href) :: rest =>
    match annotateAnchor u baseUrl linkFilter s anchor href with
    | .error e => .error e
    | .ok s' => annotateAnchors s' rest

def annotateLinks (page : HtmlPage) : Except String (String × List (ℕ × String)) :=
  let soup := removeNoiseTags page
  match annotateAnchors u baseUrl linkFilter {} (findAnchors soup) with
  | .error e => .error e
  | .ok s => .ok (stripAndJoin " " (soup.strings s.assigned.get?), s.linkMap.items)

end Annotator

/-! ### What is asked of the annotated text -/

section Spec

variable (u : UnicodeData) (baseUrl : String) (linkFilter : Option String) (page : HtmlPage)

/-- The absolute URL of a target that is to be numbered. -/
def targetUrl (href : String) : Option String :=
  match resolveAbsoluteUrl u baseUrl href with
  | .ok url => if url ≠ "" ∧ matchesFilter linkFilter url = true then some url else none
  | .error _ => none

def eligibleUrl (e : HtmlElement) : Option String :=
  if e.name = "a" then (e.attrs.lookup "href").bind (targetUrl u baseUrl linkFilter) else none

/-- The anchors outside the noise that are to be numbered, in document order, with their URLs. -/
def eligibleAnchors : List (HtmlElement × String) :=
  (removeNoiseTags page).elements.filterMap fun e => (eligibleUrl u baseUrl linkFilter e).map fun url => (e, url)

/-- The text of an anchor in the page as it was parsed. -/
def anchorText (e : HtmlElement) : String := stripAndJoin "" (e.strings fun _ => none)

/-- The text of an anchor and its marker. -/
def markedText (text : String) (index : ℕ) : String := (if text = "" then "" else text ++ " ") ++ linkMarker index

/-- The parts stand in a text one after the other. -/
def StandInOrder : List (List Char) → List Char → Prop
  | [], _ => True
  | part :: parts, text => ∃ before after, text = before ++ part ++ after ∧ StandInOrder parts after

/-- The call returns, the keys of the map are the numbers from 1 on, each for the URL of its anchor, and the
text has the text of each anchor with its marker, in the order of the numbers. -/
def LinksMarked : Prop :=
  ∃ text linkMap, annotateLinks u baseUrl linkFilter page = .ok (text, linkMap) ∧
    linkMap = ((eligibleAnchors u baseUrl linkFilter page).zipIdx 1).map (fun entry => (entry.2, entry.1.2)) ∧
    StandInOrder (((eligibleAnchors u baseUrl linkFilter page).zipIdx 1).map fun entry =>
      (markedText (anchorText entry.1.1) entry.2).toList) text.toList

/-- No target of an anchor outside the noise makes the parser of URLs raise. -/
def AllResolve : Prop :=
  ∀ entry ∈ findAnchors (removeNoiseTags page), ∃ url, resolveAbsoluteUrl u baseUrl entry.2 = .ok url

/-- No anchor that is to be numbered lies inside another one. -/
def NoneInside : Prop :=
  ∀ entry ∈ eligibleAnchors u baseUrl linkFilter page, ∀ e ∈ entry.1.children.elements,
    eligibleUrl u baseUrl linkFilter e = none

end Spec

end AscendAI.WebSearch
