import CallAtlas.Location
import CallAtlas.Text.Blank
import CallAtlas.Text.Lowercase
import CallAtlas.Text.Quoted

/-!
# Locations from web addresses

`Location.ofUrl` reads the address of a file page or of a file's bare content.  The address is
first cut into its parts: scheme, authority and path, with parameters, query and fragment dropped.
The authority is then reduced to the host.  Addresses whose authority is ill-formed are refused
with a reason of their own.
-/

namespace CallAtlas

open CallAtlas.Text

/-- Why an address gives no location. -/
inductive UrlError where
  /-- Square brackets in the authority do not enclose the host. -/
  | unbalancedBrackets
  /-- A bracketed host starts with a version mark and does not go on as such a host does. -/
  | badFutureAddress
  /-- A bracketed host is neither kind of numeric address. -/
  | badAddress (host : String)
  /-- A bracketed host is a numeric address of the older kind, which takes no brackets. -/
  | bracketedV4
  /-- A character of the authority stands for a delimiter. -/
  | hiddenDelimiter (authority : String)
  /-- The address is well formed but names no hosted file. -/
  | notAFile (url : String)
deriving DecidableEq, Repr

/-- The reason in words. -/
def UrlError.message : UrlError → String
  | unbalancedBrackets => "Invalid IPv6 URL"
  | badFutureAddress => "IPvFuture address is invalid"
  | badAddress host => quoted host ++ " does not appear to be an IPv4 or IPv6 address"
  | bracketedV4 => "An IPv4 address cannot be in brackets"
  | hiddenDelimiter authority =>
    "netloc '" ++ authority ++ "' contains invalid characters under NFKC normalization"
  | notAFile url => "Not a GitHub file URL: " ++ url

namespace Url

/-- The parts of an address that say where a file is. -/
structure Parts where
  scheme : List Char
  authority : List Char
  path : List Char
deriving DecidableEq, Repr

/-! ### Numeric hosts -/

/-- Whether a decimal number between dots is an octet: one to three digits, no superfluous zero in
front, at most 255. -/
def isOctet (s : List Char) : Bool :=
  !s.isEmpty && s.length ≤ 3 && s.all Char.isDigit && (s.length == 1 || s.head? != some '0') &&
    s.foldl (fun n c => 10 * n + (c.toNat - '0'.toNat)) 0 ≤ 255

/-- Whether `s` is a numeric address of four octets. -/
def isV4 (s : List Char) : Bool :=
  let octets := s.splitOn '.'
  octets.length == 4 && octets.all isOctet

/-- Whether `s` has one to four hexadecimal digits. -/
def isGroup (s : List Char) : Bool :=
  !s.isEmpty && s.length ≤ 4 &&
    s.all fun c => c.isDigit || ('a' ≤ c && c ≤ 'f') || ('A' ≤ c && c ≤ 'F')

/-- Whether `groups`, the pieces between the colons, make up a numeric address of eight groups.
One run of zero groups may be left out, which shows as an empty piece inside; the first and the
last piece may be empty only next to it. -/
def areGroups (groups : List (List Char)) : Bool :=
  let inner := groups.tail.dropLast
  let gaps := (inner.filter List.isEmpty).length
  let first := groups.headD []
  let last := groups.getLastD []
  if gaps = 0 then groups.length == 8 && groups.all isGroup
  else
    let front := inner.takeWhile (!·.isEmpty)
    let back := (inner.dropWhile (!·.isEmpty)).drop 1
    let high := if first.isEmpty then front else first :: front
    let low := if last.isEmpty then back else back ++ [last]
    gaps == 1 && (!first.isEmpty || front.isEmpty) && (!last.isEmpty || back.isEmpty) &&
      high.length + low.length ≤ 7 && (high ++ low).all isGroup

/-- Whether `s` is a numeric address of eight groups.  The last two groups may be written as four
octets, and a zone may follow behind a percent sign. -/
def isV6 (s : List Char) : Bool :=
  let zone := s.dropWhile (· != '%')
  let address := s.takeWhile (· != '%')
  let groups := address.splitOn ':'
  let last := groups.getLastD []
  (zone.isEmpty || (zone.length > 1 && !(zone.drop 1).contains '%')) && groups.length ≥ 3 &&
    (if last.contains '.' then isV4 last && areGroups (groups.dropLast ++ [['0'], ['0']])
      else areGroups groups)

/-- Whether `s` is a host of a numbered future kind: a `v`, hexadecimal digits, a dot and more. -/
def isFuture (s : List Char) : Bool :=
  let digits := (s.drop 1).takeWhile fun c =>
    c.isDigit || ('a' ≤ c && c ≤ 'f') || ('A' ≤ c && c ≤ 'F')
  let rest := (s.drop 1).drop digits.length
  !digits.isEmpty && rest.head? == some '.' && rest.length > 1

/-- Refuses a host in brackets that is no numeric address. -/
def checkBracketed (host : List Char) : Except UrlError Unit :=
  if host.head? = some 'v' then if isFuture host then .ok () else .error .badFutureAddress
  else if isV4 host then .error .bracketedV4
  else if isV6 host then .ok ()
  else .error (.badAddress (String.ofList host))

/-! ### Authority -/

/-- Characters that stand for a text with a delimiter in it. -/
def hiddenDelimiters : List Nat :=
  [0x2047, 0x2048, 0x2049, 0x2100, 0x2101, 0x2105, 0x2106, 0x2A74, 0xFE13, 0xFE16, 0xFE55, 0xFE56,
    0xFE5F, 0xFE6B, 0xFF03, 0xFF0F, 0xFF1A, 0xFF1F, 0xFF20]

/-- What follows the user: the host and the number behind it. -/
def hostInfo (authority : List Char) : List Char :=
  afterLast '@' authority

/-- Refuses a host in which something stands in front of the opening bracket, or anything but a
colon right behind the closing one. -/
def checkAround (info : List Char) : Except UrlError Unit :=
  let behind := afterFirst ']' info
  if info.contains '[' && (info.head? != some '[' || behind.head?.any (· != ':')) then
    .error .unbalancedBrackets
  else .ok ()

/-- The name of the host as it is written: between the brackets, or up to a colon. -/
def hostName (info : List Char) : List Char :=
  if info.contains '[' then beforeFirst ']' (afterFirst '[' info) else beforeFirst ':' info

/-- Refuses an authority with misplaced brackets, or with brackets and a host that is no numeric
address. -/
def checkBrackets (authority : List Char) : Except UrlError Unit :=
  match authority.contains '[', authority.contains ']' with
  | true, true => do
    checkAround (hostInfo authority)
    checkBracketed (hostName (hostInfo authority))
  | false, false => .ok ()
  | _, _ => .error .unbalancedBrackets

/-- Refuses an authority in which a delimiter hides. -/
def checkDelimiters (authority : List Char) : Except UrlError Unit :=
  if authority.any fun c => hiddenDelimiters.contains c.toNat then
    .error (.hiddenDelimiter (String.ofList authority))
  else .ok ()

/-- The host in lower case, without user and number; a zone behind a percent sign is kept as it
is. -/
def host (authority : List Char) : String :=
  let name := hostName (hostInfo authority)
  lower (String.ofList (name.takeWhile (· != '%'))) ++ String.ofList (name.dropWhile (· != '%'))

/-! ### Splitting -/

/-- Whether `c` may stand in a scheme. -/
def isSchemeChar (c : Char) : Bool :=
  c.isAlphanum || c == '+' || c == '-' || c == '.'

/-- The schemes whose last path segment may carry parameters. -/
def schemesWithParameters : List String :=
  ["", "ftp", "hdl", "prospero", "http", "imap", "https", "shttp", "rtsp", "rtsps", "rtspu", "sip",
    "sips", "mms", "sftp", "tel"]

/-- Cuts off the scheme, in lower case; it is empty when the address has none. -/
def splitScheme (url : List Char) : List Char × List Char :=
  let front := url.takeWhile (· != ':')
  if front.length < url.length && front.head?.any Char.isAlpha && front.all isSchemeChar then
    (front.map Char.toLower, url.drop (front.length + 1))
  else ([], url)

/-- The path without the parameters of its last segment. -/
def dropParameters (path : List Char) : List Char :=
  let last := afterLast '/' path
  path.take (path.length - last.length) ++ beforeFirst ';' last

/-- Cuts an address into its parts.  Controls and spaces in front, and tabs and line breaks
anywhere, are not part of the address. -/
def parts (url : List Char) : Except UrlError Parts := do
  let url := (url.dropWhile fun c => c.toNat ≤ 0x20).filter fun c =>
    !(c == '\t' || c == '\r' || c == '\n')
  let (scheme, rest) := splitScheme url
  let isDelimiter (c : Char) : Bool := c == '/' || c == '?' || c == '#'
  let (authority, rest) :=
    match rest with
    | '/' :: '/' :: s => (s.takeWhile (!isDelimiter ·), s.dropWhile (!isDelimiter ·))
    | s => ([], s)
  checkBrackets authority
  checkDelimiters authority
  let path := beforeFirst '?' (beforeFirst '#' rest)
  let path :=
    if schemesWithParameters.contains (String.ofList scheme) then dropParameters path else path
  return ⟨scheme, authority, path⟩

end Url

/-- The file that an address names: a file page `/owner/repo/blob/branch/path` of the hosting site,
or bare content `/owner/repo/branch/path`.  Empty path segments are ignored. -/
def Location.ofUrl (url : String) : Except UrlError Location := do
  let parts ← Url.parts (trimBy isBlank url.toList)
  let segments := ((parts.path.splitOn '/').filter (!·.isEmpty)).map String.ofList
  let host := Url.host parts.authority
  match segments with
  | owner :: repo :: third :: fourth :: rest =>
    if host = "github.com" && third = "blob" && !rest.isEmpty then
      return ⟨owner, repo, fourth, join "/" rest⟩
    else if host = "raw.githubusercontent.com" then
      return ⟨owner, repo, third, join "/" (fourth :: rest)⟩
    else throw (.notAFile url)
  | _ => throw (.notAFile url)

end CallAtlas
