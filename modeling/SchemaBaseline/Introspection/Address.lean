import SchemaBaseline.Text.Quoted
import SchemaBaseline.Text.Split
import SchemaBaseline.Text.Utf8

/-!
# Addresses of a server

The address of a server is an URL to which the path of an endpoint is appended. `endpoint` writes
the result in its normal form: scheme and host in lowercase, the port left out where it is the
usual one of the scheme, no dot segments in the path, and characters that an URL cannot hold as
percent escapes.
-/

namespace SchemaBaseline.Introspection

/-- ASCII letters in lowercase. -/
def lowercase (cs : List Char) : List Char :=
  cs.map Char.toLower

/-- The port that a scheme uses unless told otherwise. -/
def usualPort (scheme : List Char) : List Char :=
  match String.ofList scheme with
  | "http" => ['8', '0']
  | "https" => ['4', '4', '3']
  | "ws" => ['8', '0']
  | "wss" => ['4', '4', '3']
  | "ftp" => ['2', '1']
  | _ => []

/-- Splits a list behind the last occurrence of a character; without one the first part is
empty. -/
def splitBehindLast (c : Char) (cs : List Char) : List Char × List Char :=
  let back := cs.reverse
  ((back.dropWhile (· != c)).reverse, (back.takeWhile (· != c)).reverse)

/-- The host and the port in their normal form; a port is what follows a last colon, if it holds
digits only. -/
def normalHost (scheme host : List Char) : List Char :=
  let (front, port) := splitBehindLast ':' host
  if front.isEmpty || !port.all Char.isDigit then lowercase host
  else
    let name := lowercase front.dropLast
    if port.isEmpty || port == usualPort scheme then name else name ++ ':' :: port

/-- The part between the slashes and the path: a user, if one is given, the host and the port. -/
def normalAuthority (scheme authority : List Char) : List Char :=
  let (user, host) := splitBehindLast '@' authority
  user ++ normalHost scheme host

/-- Removes the segments that stay in place or go up, the latter with the segment before. `kept`
holds those before, last first; the first one is the empty segment in front of the leading
slash. -/
def dropDots : List (List Char) → List (List Char) → List (List Char)
  | kept, [] => kept.reverse
  | kept, ['.'] :: rest => dropDots kept rest
  | kept, ['.', '.'] :: rest =>
    match kept with
    | top :: below =>
      if below.isEmpty && top.isEmpty then dropDots kept rest else dropDots below rest
    | [] => dropDots kept rest
  | kept, segment :: rest => dropDots (segment :: kept) rest

/-- A path without dot segments; a path that has none is left alone. -/
def normalPath (path : List Char) : List Char :=
  let segments := Text.splitAt '/' path
  if segments.contains ['.'] || segments.contains ['.', '.'] then
    (dropDots [] segments).intersperse ['/'] |>.flatten
  else path

/-- Whether a character may stand for itself in an URL. -/
def isUrlChar (c : Char) : Bool :=
  0x20 < c.toNat && c.toNat < 0x7f && !"\"<>`\x7b\x7d".toList.contains c

/-- A character of a path, or its bytes as percent escapes. -/
def escapedUrlChar (c : Char) : List Char :=
  if isUrlChar c then [c]
  else (Text.Utf8.encode (String.singleton c)).flatMap fun b =>
    '%' :: (Text.hexDigits 2 b.toNat).map Char.toUpper

def endsAuthority (c : Char) : Bool :=
  c == '/' || c == '?' || c == '#'

/-- The normal form of an URL. What does not begin with a scheme and two slashes is only
escaped. -/
def normalUrl (url : List Char) : List Char :=
  let scheme := lowercase (url.takeWhile (· != ':'))
  match url.dropWhile (· != ':') with
  | ':' :: '/' :: '/' :: rest =>
    let authority := rest.takeWhile (!endsAuthority ·)
    let path := rest.dropWhile (!endsAuthority ·)
    scheme ++ ':' :: '/' :: '/' :: normalAuthority scheme authority ++
      (normalPath path).flatMap escapedUrlChar
  | _ => url.flatMap escapedUrlChar

def endpoint (server path : String) : String :=
  String.ofList (normalUrl (server ++ path).toList)

end SchemaBaseline.Introspection
