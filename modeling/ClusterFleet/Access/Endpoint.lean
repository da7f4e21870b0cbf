namespace ClusterFleet

structure Endpoint where
  authority : String
  path : String

namespace Endpoint

def maxLength : Nat := 65534

def endsAuthority (c : Char) : Bool := c = '/' || c = '?' || c = '#'

def isAuthorityChar (c : Char) : Bool :=
  c.isAlphanum || "!#$&'()*+,-./:;=?@[]_~".toList.contains c

/-- What has been seen of an authority. -/
structure Scan where
  /-- Colons since the last user part or bracket. -/
  colons : Nat := 0
  opened : Bool := false
  closed : Bool := false
  /-- A percent sign since the last user part or bracket. -/
  percent : Bool := false
  /-- The last character was an at sign. -/
  afterAt : Bool := false

/-- Eight colons are those of an address in brackets with a port. -/
def maxColons : Nat := 8

def Scan.step (s : Scan) (c : Char) : Option Scan :=
  let s := { s with afterAt := c = '@' }
  if c = ':' then if s.colons < maxColons then some { s with colons := s.colons + 1 } else none
  else if c = '[' then if s.percent || s.opened then none else some { s with opened := true }
  else if c = ']' then
    if !s.opened || s.closed then none
    else some { s with closed := true, colons := 0, percent := false }
  else if c = '@' then some { s with colons := 0, percent := false }
  else if c = '%' then some { s with percent := true }
  else if isAuthorityChar c then some s
  else none

/-- Brackets match, one colon at most is left, and something follows the user part. -/
def Scan.complete (s : Scan) : Bool :=
  s.opened = s.closed && s.colons ≤ 1 && !s.afterAt && !s.percent

def isAuthority (cs : List Char) : Bool :=
  !cs.isEmpty && match cs.foldlM Scan.step {} with
    | some s => s.complete
    | none => false

def isQueryChar (c : Char) : Bool :=
  let n := c.toNat
  n = 0x21 || (0x24 ≤ n && n ≤ 0x3B) || n = 0x3D || (0x3F ≤ n && n ≤ 0x7E) || 0x80 ≤ n

def isPathChar (c : Char) : Bool :=
  let n := c.toNat
  n = 0x21 || (0x24 ≤ n && n ≤ 0x3B) || n = 0x3D || (0x40 ≤ n && n ≤ 0x5F) ||
    (0x61 ≤ n && n ≤ 0x7A) || n = 0x7C || n = 0x7E || 0x80 ≤ n || c = '"' || c = '\x7b' ||
    c = '\x7d'

def hasScheme (s : String) : Bool := s.startsWith "http://" || s.startsWith "https://"

def afterScheme (s : String) : List Char :=
  (s.toList.dropWhile (· ≠ ':')).drop 3

/-- The base URL of an API server, by the rules of RFC 3986, relaxed in paths. A fragment may hold
anything and is dropped. -/
def ofText? (s : String) : Option Endpoint :=
  let cs := afterScheme s
  let authority := cs.takeWhile (!endsAuthority ·)
  let rest := (cs.dropWhile (!endsAuthority ·)).takeWhile (· ≠ '#')
  let path := rest.takeWhile (· ≠ '?')
  let query := (rest.dropWhile (· ≠ '?')).drop 1
  if hasScheme s && s.utf8ByteSize ≤ maxLength && isAuthority authority && path.all isPathChar &&
      query.all isQueryChar then
    some ⟨String.ofList authority, String.ofList path⟩
  else none

def address (e : Endpoint) : String :=
  String.ofList (e.authority.toList.reverse.takeWhile (· ≠ '@')).reverse

/-- The path of a resource below the base URL; slashes at the end of the base do not count. -/
def resolve (e : Endpoint) (path : String) : String :=
  String.ofList (e.path.toList.reverse.dropWhile (· = '/')).reverse ++ path

end Endpoint
end ClusterFleet
