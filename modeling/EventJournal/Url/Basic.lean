import EventJournal.Url.Host

/-!
# Addresses

An address has a scheme and, after it, an authority with host and port, a path, a query and a fragment.
In the schemes of the web and in `file` a path is a list of segments, a backslash separates as a slash
does, and all slashes in front of a host count as one pair. In other schemes a path that does not
begin with a slash is opaque: nothing can be added to it.

`Url.extend` adds segments to a path, each encoded so that it stays one segment. The segments `.` and
`..` are not added, and breaks are dropped from the others.
-/

namespace EventJournal

/-- The path of an address. -/
inductive UrlPath where
  | opaquePath (text : String)
  /-- Segments, as they are written. -/
  | segments (list : List String)
  deriving Repr, DecidableEq, Inhabited

/-- An address. -/
structure Url where
  scheme : String
  username : String
  password : Option String
  host : Option Host
  port : Option Nat
  path : UrlPath
  query : Option String
  fragment : Option String
  deriving Repr, DecidableEq, Inhabited

namespace Url

/-! ## Schemes -/

/-- The schemes of the web and their ports. -/
def webPorts : List (String × Nat) :=
  [("http", 80), ("https", 443), ("ws", 80), ("wss", 443), ("ftp", 21)]

/-- Whether a scheme is one of the web, or `file`. -/
def isSpecial (scheme : String) : Bool := scheme = "file" || (webPorts.lookup scheme).isSome

/-- Whether a character may stand in a scheme, after the first. -/
def schemeChar (c : Char) : Bool := c.isAlphanum || c = '+' || c = '-' || c = '.'

/-- The scheme in lowercase and what follows its colon. -/
def splitScheme (text : List Char) : Option (String × List Char) :=
  match text with
  | [] => none
  | first :: _ =>
    if first.isAlpha then
      match text.dropWhile schemeChar with
      | ':' :: rest => some (String.ofList ((text.takeWhile schemeChar).map Char.toLower), rest)
      | _ => none
    else none

/-! ## Paths -/

/-- Whether a character separates segments. -/
def separates (special : Bool) (c : Char) : Bool := c = '/' || (special && c = '\\')

/-- Whether a segment means the same directory. -/
def isDot (segment : String) : Bool := ["." , "%2e", "%2E"].contains segment

/-- Whether a segment means the directory above. -/
def isDoubleDot (segment : String) : Bool :=
  ["..", ".%2e", ".%2E", "%2e.", "%2E.", "%2e%2e", "%2e%2E", "%2E%2e", "%2E%2E"].contains segment

/-- Adds segments as they are written to a path; a segment with dots moves within it, and at the end
leaves an empty segment. -/
def walk (path : List String) : List String → List String
  | [] => path
  | [last] =>
    if isDoubleDot last then path.dropLast ++ [""]
    else if isDot last then path ++ [""]
    else path ++ [last]
  | segment :: rest =>
    if isDoubleDot segment then walk path.dropLast rest
    else if isDot segment then walk path rest
    else walk (path ++ [segment]) rest

/-- The segments of a path. -/
def readSegments (special : Bool) (text : List Char) : List String :=
  let inner := match text with
    | c :: rest => if separates special c then rest else text
    | [] => []
  let written := (Host.splitAt (separates special) inner).map fun segment =>
    String.ofList (Percent.encode Percent.path segment)
  if text.isEmpty && !special then [] else walk [] written

/-- Splits at the first character that satisfies a predicate; the second part begins with it. -/
def breakAt (stop : Char → Bool) (text : List Char) : List Char × List Char :=
  (text.takeWhile fun c => !stop c, text.dropWhile fun c => !stop c)

/-- The query and the fragment of what follows a path. -/
def readTail (special : Bool) (text : List Char) : Option String × Option String :=
  let (front, back) := breakAt (· = '#') text
  let encodes := if special then Percent.webQuery else Percent.query
  let query := match front with
    | '?' :: query => some (String.ofList (Percent.encode encodes query))
    | _ => none
  let fragment := match back with
    | '#' :: fragment => some (String.ofList (Percent.encode Percent.fragment fragment))
    | _ => none
  (query, fragment)

/-! ## Authorities -/

/-- The authority of an address. -/
structure Authority where
  username : String
  password : Option String
  host : Option Host
  port : Option Nat

/-- Splits at the last at sign; the first part is what stands before it, if there is one. -/
def splitCredentials (text : List Char) : Option (List Char) × List Char :=
  if text.contains '@' then
    let back := (text.reverse.takeWhile (· ≠ '@')).reverse
    (some (text.take (text.length - back.length - 1)), back)
  else (none, text)

/-- Splits at the first colon that is not in brackets. -/
def splitPort : Bool → List Char → List Char × Option (List Char)
  | _, [] => ([], none)
  | inside, c :: rest =>
    if c = ':' ∧ inside = false then ([], some rest)
    else
      let (host, port) := splitPort (if c = '[' then true else if c = ']' then false else inside) rest
      (c :: host, port)

/-- A port; none if it is empty or the usual one of the scheme. -/
def readPort (scheme : String) (digits : List Char) : Except UrlError (Option Nat) :=
  if digits.all Char.isDigit then
    match Host.number? 10 digits with
    | some port =>
      if 65535 < port then .error .invalidPort
      else if digits.isEmpty ∨ webPorts.lookup scheme = some port then .ok none
      else .ok (some port)
    | none => .error .invalidPort
  else .error .invalidPort

/-- A user name and a password, encoded. -/
def readCredentials (text : List Char) : String × Option String :=
  let encoded (part : List Char) : String := String.ofList (Percent.encode Percent.credentials part)
  let (name, rest) := breakAt (· = ':') text
  (encoded name, match rest with
    | ':' :: password => if password.isEmpty then none else some (encoded password)
    | _ => none)

/-- An authority. -/
def readAuthority (scheme : String) (text : List Char) : Except UrlError Authority :=
  let special := isSpecial scheme
  let (credentials, place) := splitCredentials text
  let (username, password) := readCredentials (credentials.getD [])
  let (hostText, portText) := splitPort false place
  if hostText.isEmpty then
    if special ∨ portText.isSome ∨ !(credentials.getD []).isEmpty then .error .emptyHost
    else .ok ⟨username, password, none, none⟩
  else
    match (if special then Host.web hostText else Host.other hostText) with
    | .error error => .error error
    | .ok host =>
      (readPort scheme (portText.getD [])).map fun port => ⟨username, password, some host, port⟩

/-! ## Reading -/

/-- The address of a scheme, an authority and what follows it. -/
def assemble (scheme : String) (authority : Authority) (rest : List Char) : Url :=
  let special := isSpecial scheme
  let (path, tail) := breakAt (fun c => c = '?' ∨ c = '#') rest
  let (query, fragment) := readTail special tail
  { scheme, username := authority.username, password := authority.password,
    host := authority.host, port := authority.port,
    path := .segments (readSegments special path), query, fragment }

/-- No authority. -/
def nowhere : Authority := ⟨"", none, none, none⟩

/-- An address with an authority. -/
def readPlace (scheme : String) (text : List Char) : Except UrlError Url :=
  let special := isSpecial scheme
  let (place, rest) := breakAt (fun c => separates special c ∨ c = '?' ∨ c = '#') text
  (readAuthority scheme place).map fun authority => assemble scheme authority rest

/-- An address of a file; a host is optional. -/
def readFile (text : List Char) : Except UrlError Url :=
  match text with
  | a :: b :: rest =>
    if separates true a ∧ separates true b then
      let (place, path) := breakAt (fun c => separates true c ∨ c = '?' ∨ c = '#') rest
      if place.isEmpty then .ok (assemble "file" nowhere path)
      else (Host.web place).map fun host => assemble "file" { nowhere with host := some host } path
    else .ok (assemble "file" nowhere text)
  | _ => .ok (assemble "file" nowhere text)

/-- An address with an opaque path. -/
def readOpaque (scheme : String) (text : List Char) : Url :=
  let (path, tail) := breakAt (fun c => c = '?' ∨ c = '#') text
  let (query, fragment) := readTail false tail
  { scheme, username := "", password := none, host := none, port := none,
    path := .opaquePath (String.ofList (Percent.encode Percent.controls path)), query, fragment }

/-- A text without the breaks in it, tabs among them. -/
def unbroken (text : List Char) : List Char := text.filter fun c => !(['\t', '\n', '\r'].contains c)

/-- The characters of a text without the blanks around it and the breaks within it. -/
def strip (text : String) : List Char :=
  let blank (c : Char) : Bool := c.toNat ≤ 0x20
  unbroken ((text.toList.dropWhile blank).reverse.dropWhile blank).reverse

/-- Reads an address. -/
def parse (text : String) : Except UrlError Url :=
  match splitScheme (strip text) with
  | none => .error .relative
  | some (scheme, rest) =>
    if scheme = "file" then readFile rest
    else if isSpecial scheme then readPlace scheme (rest.dropWhile (separates true))
    else match rest with
      | '/' :: '/' :: rest => readPlace scheme rest
      | '/' :: _ => .ok (assemble scheme nowhere rest)
      | _ => .ok (readOpaque scheme rest)

/-! ## Use -/

/-- Whether the path is opaque. -/
def isOpaque (url : Url) : Bool :=
  match url.path with
  | .opaquePath _ => true
  | .segments _ => false

/-- A text as one segment: without breaks, and encoded. -/
def encodeSegment (special : Bool) (text : String) : String :=
  String.ofList
    (Percent.encode (if special then Percent.webSegment else Percent.segment) (unbroken text.toList))

/-- Adds one segment to a path; the empty segment of a bare root gives way to it. A text of one or two dots
adds nothing; dots with breaks among them move within the path, as they do in a path that is read. -/
def addSegment (special : Bool) (path : List String) (text : String) : List String :=
  if text = "." ∨ text = ".." then path
  else walk (if path = [""] then [] else path) [encodeSegment special text]

/-- Adds segments; one empty segment at the end of the path gives way to them. -/
def extend (url : Url) (texts : List String) : Url :=
  match url.path with
  | .opaquePath _ => url
  | .segments path =>
    let base := if path.getLast? = some "" then path.dropLast else path
    { url with path := .segments (texts.foldl (addSegment (isSpecial url.scheme)) base) }

/-- Adds pairs of names and values, which need no encoding, to the query. -/
def withQuery (url : Url) (pairs : List (String × String)) : Url :=
  let added := "&".intercalate (pairs.map fun (name, value) => name ++ "=" ++ value)
  let query := match url.query with
    | none | some "" => added
    | some query => query ++ "&" ++ added
  { url with query := some query }

/-- The path as a request names it. -/
def pathText (url : Url) : String :=
  match url.path with
  | .opaquePath text => text
  | .segments list => "/" ++ "/".intercalate list

/-- The path and the query as a request names them. -/
def target (url : Url) : String := url.pathText ++ (url.query.map ("?" ++ ·)).getD ""

end Url

end EventJournal
