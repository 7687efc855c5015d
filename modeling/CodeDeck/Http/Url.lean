import CodeDeck.Hostname.Normal
import CodeDeck.Number.Numeral

/-!
Addresses on the web in normal form: each part is percent-encoded where it has to be, names of schemes
and hosts stand in lower case, a port that goes without saying is left out, and dot segments are
resolved where there is a scheme or an authority.
-/

namespace CodeDeck.Http

open CodeDeck.Text CodeDeck.Number

structure Url where
  scheme : List Char
  userinfo : List Char
  host : List Char
  port : Option Int
  path : List Char
  query : Option (List Char)
  fragment : Option (List Char)
  deriving DecidableEq, Repr

namespace Url

def maxLength : Nat := 65536

def isFragmentChar (c : Char) : Bool :=
  0x21 ≤ c.toNat && c.toNat < 0x7F && c ∉ ['"', '<', '>', '\x60']

def isQueryChar (c : Char) : Bool :=
  0x21 ≤ c.toNat && c.toNat < 0x7F && c ∉ ['"', '#', '<', '>']

def isPathChar (c : Char) : Bool := isQueryChar c && c ∉ ['?', '\x60', '\x7b', '\x7d']

def isUserinfoChar (c : Char) : Bool :=
  isPathChar c && c ∉ ['/', ';', '=', '@', '[', '\\', ']', '^', '|']

/-- Parts that are a single point are dropped, two points take back the part before. -/
def resolveParts (done : List (List Char)) : List (List Char) → List (List Char)
  | [] => done.reverse
  | part :: rest =>
    if part = ['.'] then resolveParts done rest
    else if part = ['.', '.'] then
      resolveParts (if done = [] ∨ done = [[]] then done else done.drop 1) rest
    else resolveParts (part :: done) rest

def resolvePath (path : List Char) : List Char :=
  List.intercalate ['/'] (resolveParts [] (splitOn '/' path))

def standardPort? (scheme : List Char) : Option Int :=
  if scheme = "ftp".toList then some 21
  else if scheme = "http".toList ∨ scheme = "ws".toList then some 80
  else if scheme = "https".toList ∨ scheme = "wss".toList then some 443
  else none

/-- User, host and port of an authority. A host in square brackets may hold colons. -/
def splitAuthority (authority : List Char) : List Char × List Char × List Char :=
  let hostAndPort := afterLast '@' authority
  let userinfo := authority.take (authority.length - hostAndPort.length - 1)
  let behindBracket := afterLast ']' hostAndPort
  let host :=
    if hostAndPort.head? = some '[' ∧ hostAndPort.contains ']' then
      hostAndPort.take (hostAndPort.length - behindBracket.length)
    else hostAndPort.takeWhile (· != ':')
  let port := hostAndPort.drop host.length
  (userinfo, host, if port.head? = some ':' then port.drop 1 else port)

/-- The port in the text, unless it is none or goes without saying. -/
def readPort? (scheme port : List Char) : Option (Option Int) :=
  if port = [] then some none
  else
    match readInt port with
    | .ok n => some (if standardPort? scheme = some n then none else some n)
    | .error _ => none

def fitsBehind (hasScheme hasAuthority : Bool) (path : List Char) : Bool :=
  if hasAuthority then path = [] || path.head? = some '/'
  else hasScheme || !(path.take 2 = ['/', '/'] || path.head? = some ':')

/-- The address of the given parts. -/
def ofParts? (scheme authority path : List Char) (query fragment : Option (List Char)) :
    Option Url := do
  let (userinfo, host, port) := splitAuthority authority
  let host ← if host = [] then some [] else Hostname.normal? host
  let port ← readPort? scheme port
  let hasScheme := scheme != []
  let hasAuthority := userinfo != [] || host != [] || port.isSome
  if fitsBehind hasScheme hasAuthority path then
    let path := if hasScheme || hasAuthority then resolvePath path else path
    return {
      scheme := scheme.map Char.toLower
      userinfo := Percent.encode isUserinfoChar userinfo
      host := host
      port := port
      path := Percent.encode isPathChar path
      query := query.map (Percent.encode isQueryChar)
      fragment := fragment.map (Percent.encode isFragmentChar) }
  else none

def isSchemeChar (c : Char) : Bool :=
  c.isAlphanum || c == '+' || c == '.' || c == '-'

def splitScheme (s : List Char) : List Char × List Char :=
  let scheme := s.takeWhile isSchemeChar
  match s.dropWhile isSchemeChar with
  | ':' :: rest => if scheme.head?.all Char.isAlpha then (scheme, rest) else ([], s)
  | _ => ([], s)

def isAuthorityEnd (c : Char) : Bool := c == '/' || c == '?' || c == '#'

def splitSlashes (s : List Char) : List Char × List Char :=
  match s with
  | '/' :: '/' :: rest =>
    (rest.takeWhile fun c => !isAuthorityEnd c, rest.dropWhile fun c => !isAuthorityEnd c)
  | _ => ([], s)

def cutAt (c : Char) (s : List Char) : List Char × Option (List Char) :=
  (s.takeWhile (· != c), if s.contains c then some (cut c s).2 else none)

/-- The address in a text; a text that is too long or holds a control character is none. -/
def ofText? (s : List Char) : Option Url :=
  if s.length ≤ maxLength && !s.any isControl then
    let (scheme, rest) := splitScheme s
    let (authority, rest) := splitSlashes rest
    let (rest, fragment) := cutAt '#' rest
    let (path, query) := cutAt '?' rest
    ofParts? scheme authority path query fragment
  else none

def authority (u : Url) : List Char :=
  (if u.userinfo = [] then [] else u.userinfo ++ ['@'])
    ++ (if u.host.contains ':' then '[' :: u.host ++ [']'] else u.host)
    ++ match u.port with
      | some port => ':' :: (toString port).toList
      | none => []

def mark (c : Char) : Option (List Char) → List Char
  | some part => c :: part
  | none => []

def render (u : Url) : List Char :=
  (if u.scheme = [] then [] else u.scheme ++ [':'])
    ++ (if u.authority = [] then [] else '/' :: '/' :: u.authority)
    ++ u.path ++ mark '?' u.query ++ mark '#' u.fragment

/-- The target of a request to the address: its path, a slash at least, with the query. -/
def target (u : Url) : List Char := (if u.path = [] then ['/'] else u.path) ++ mark '?' u.query

def withParts? (u : Url) (path : List Char) (query : Option (List Char)) : Option Url :=
  if [u.scheme, u.authority, path, query.getD [], u.fragment.getD []].all
      fun part => part.length ≤ maxLength then
    ofParts? u.scheme u.authority path query u.fragment
  else none

def withTarget? (u : Url) (target : List Char) : Option Url :=
  let (path, query) := cutAt '?' target
  u.withParts? path query

/-- The address as one that others are joined to: its target ends with a slash. -/
def asBase? (u : Url) : Option Url :=
  if u.target.getLast? = some '/' then some u else u.withTarget? (u.target ++ ['/'])

def join? (base : Url) (reference : List Char) : Option Url := do
  let below ← ofText? reference
  base.withTarget? (base.target ++ below.target.dropWhile (· == '/'))

/-- Does the address start with the name of a scheme, whatever its characters? -/
def hasType (u : Url) : Bool :=
  let front := u.render.takeWhile fun c => c != '/' && c != ':'
  front != [] && (u.render.drop front.length).head? = some ':'

def credentials? (u : Url) : Option (List Char) :=
  let (name, password) := cut ':' u.userinfo
  let name := Percent.decode name
  let password := Percent.decode password
  if name = [] ∧ password = [] then none else some (name ++ ':' :: password)

end Url

end CodeDeck.Http
