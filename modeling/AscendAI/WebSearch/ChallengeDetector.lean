import AscendAI.Lib.PythonString

/-!
# The challenge detector

What AscendWebSearch takes for a page of a firewall or of a login. It looks for phrases of a dictionary and at the
titles of a page, and at no page of more than 50000 characters.
-/

namespace AscendAI.WebSearch
open PythonString

/-- The dictionary, with the entries of the shipped file. -/
structure BotDict where
  wafScriptSignatures : List String := ["arkoselabs.com", "recaptcha/api.js", "hcaptcha.com/1/api.js",
    "datadome.co/tags.js", "perimeterx.net"]
  wafStrictPhrases : List String := ["Prove your humanity", "Pardon Our Interruption",
    "Please verify you are a human", "Checking if the site connection is secure", "Just a moment...",
    "Attention Required!"]
  loginTitlePatterns : List String := ["sign in", "log in", "login", "sign into", "create account"]

/-- The dictionary when the file cannot be read. -/
def BotDict.fallback : BotDict := ⟨[], [], []⟩

/-- The dictionary with Python's tables of characters: `str.lower` and the class of the characters of words. -/
structure ChallengeDetector where
  botDict : BotDict := {}
  lower : String → String
  isWord : Char → Bool

/-! ### The patterns -/

/-- A letter of a pattern in lower case, with `re.IGNORECASE`. -/
def matchesIgnoreCase (letter c : Char) : Bool :=
  c == letter || c == letter.toUpper || letter == 'i' && (c == '\u0130' || c == '\u0131')

/-- The text behind a literal of a pattern. -/
def afterLiteral : List Char → List Char → Option (List Char)
  | [], s => some s
  | _ :: _, [] => none
  | letter :: literal, c :: s => if matchesIgnoreCase letter c then afterLiteral literal s else none

/-- The text behind `[^>]*>`. -/
def afterTag : List Char → Option (List Char)
  | [] => none
  | c :: s => if c = '>' then some s else afterTag s

/-- What `(.*?)</title>` matches: the group, and the text behind. -/
def untilEndTag : List Char → Option (List Char × List Char)
  | [] => none
  | c :: s =>
    match afterLiteral "</title>".toList (c :: s) with
    | some rest => some ([], rest)
    | none => (untilEndTag s).map fun found => (c :: found.1, found.2)

/-- A match of the pattern of titles at the start of the text. -/
def titleAt (s : List Char) : Option (List Char × List Char) :=
  ((afterLiteral "<title".toList s).bind afterTag).bind untilEndTag

/-- The groups of `re.finditer`, for a text that is not longer than the number. -/
def titlesFrom : ℕ → List Char → List (List Char)
  | 0, _ => []
  | _ + 1, [] => []
  | n + 1, c :: s =>
    match titleAt (c :: s) with
    | some (title, rest) => title :: titlesFrom n rest
    | none => titlesFrom n s

def titles (html : String) : List String := (titlesFrom html.toList.length html.toList).map String.ofList

/-- `re.search` of the pattern of a ray identifier. -/
def hasRayId (isWord : Char → Bool) (html : String) : Bool :=
  html.toList.tails.any fun s => ((afterLiteral "ray id: ".toList s).bind List.head?).any isWord

/-! ### The detector -/

namespace ChallengeDetector

variable (d : ChallengeDetector)

def isBlocked (statusCode : ℕ) (html : String) : Bool :=
  if html = "" then [403, 429, 503].contains statusCode
  else if 50000 < html.length then false
  else d.botDict.wafScriptSignatures.any (contains html) || d.botDict.wafStrictPhrases.any (contains html) ||
    hasRayId d.isWord html || contains html "cf-turnstile" || contains html "cf_clearance"

def isLoginRequired (html : String) : Bool :=
  if html = "" then false
  else if 50000 < html.length then false
  else (titles html).any fun title => d.botDict.loginTitlePatterns.any (contains (d.lower (strip title)))

/-- The checks let a page through that has come with this status. -/
def Passes (statusCode : ℕ) (html : String) : Prop :=
  d.isLoginRequired html = false ∧ d.isBlocked statusCode html = false

end ChallengeDetector

end AscendAI.WebSearch
