import StepOAuth.Go.Values

/-!
# `url.Parse` and `URL.String`

Go's `net/url` parser and printer, as of Go 1.21, for the calls the source makes: `url.Parse`
on the authorization endpoint, on the provider and on `--listen-url`, `u.Query()`, and
`u.String()` in `Auth` and `disco`. The model follows the source function by function:
`getScheme`, `parse` (the part before `#`), `parseAuthority`, `parseHost`, `setPath`,
`setFragment`, `EscapedPath`, `EscapedFragment` and `String`.

Go's `Opaque` field is `opaqueData` here, since `opaque` is a Lean keyword. Errors are kept as
their kind; the `*url.Error` wrapper that adds the operation and the input is not rendered.
-/

namespace StepOAuth
namespace Go
namespace Url

/-- `url.Userinfo`. -/
structure Userinfo where
  username : Bytes
  password : Bytes
  passwordSet : Bool
  deriving DecidableEq, Repr

/-- `u.String()` for a `*Userinfo`. -/
def Userinfo.string (u : Userinfo) : Bytes :=
  escape u.username .userPassword ++
    if u.passwordSet then ':'.toUInt8 :: escape u.password .userPassword else []

/-- `url.URL`. A new `URL` has every field empty. -/
structure URL where
  scheme : Bytes := []
  opaqueData : Bytes := []
  user : Option Userinfo := none
  host : Bytes := []
  path : Bytes := []
  rawPath : Bytes := []
  omitHost : Bool := false
  forceQuery : Bool := false
  rawQuery : Bytes := []
  fragment : Bytes := []
  rawFragment : Bytes := []
  deriving DecidableEq, Repr

/-- The errors `url.Parse` can return. -/
inductive ParseError
  | ctl
  | missingScheme
  | colonInFirstSegment
  | invalidUserinfo
  | missingBracket
  | invalidPort (colonPort : Bytes)
  | escape (e : EscapeError)
  deriving DecidableEq, Repr

/-! ## Parsing -/

/-- `stringContainsCTLByte(s)`: a byte below `0x20`, or `0x7f`. -/
def containsCTLByte (s : Bytes) : Bool := s.any fun b => b.toNat < 0x20 || b.toNat = 0x7f

/-- An ASCII letter. -/
def isLetter (c : UInt8) : Bool :=
  ('a'.toUInt8 ≤ c && c ≤ 'z'.toUInt8) || ('A'.toUInt8 ≤ c && c ≤ 'Z'.toUInt8)

/-- The loop of `getScheme(rawURL)`, with `acc = rawURL[:i]` already scanned. -/
def getSchemeLoop (rawURL : Bytes) : Bytes → Bytes → Except ParseError (Bytes × Bytes)
  | _, [] => .ok ([], rawURL)
  | acc, c :: s =>
      if isLetter c then getSchemeLoop rawURL (acc ++ [c]) s
      else if ('0'.toUInt8 ≤ c ∧ c ≤ '9'.toUInt8) ∨ isOneOf c ['+', '-', '.'] then
        if acc = [] then .ok ([], rawURL) else getSchemeLoop rawURL (acc ++ [c]) s
      else if c = ':'.toUInt8 then
        if acc = [] then .error .missingScheme else .ok (acc, s)
      else .ok ([], rawURL)

/-- `getScheme(rawURL)`: the scheme and the rest. -/
def getScheme (rawURL : Bytes) : Except ParseError (Bytes × Bytes) :=
  getSchemeLoop rawURL [] rawURL

/-- `strings.ToLower` on the ASCII bytes a scheme is made of. -/
def toLower (s : Bytes) : Bytes :=
  s.map fun c => if 'A'.toUInt8 ≤ c ∧ c ≤ 'Z'.toUInt8 then c + 32 else c

/-- `validOptionalPort(port)`: empty, or `:` and digits. -/
def validOptionalPort : Bytes → Bool
  | [] => true
  | c :: port => c = ':'.toUInt8 && port.all fun b => '0'.toUInt8 ≤ b && b ≤ '9'.toUInt8

/-- `validUserinfo(s)`. The source ranges over runes; every rune it allows is ASCII, so a
check of the bytes accepts the same strings. -/
def validUserinfo (s : Bytes) : Bool :=
  s.all fun c => isAlnum c ||
    isOneOf c ['-', '.', '_', ':', '~', '!', '$', '&', '\'', '(', ')', '*', '+', ',', ';', '=',
      '%', '@']

/-- `parseHost(host)`: a bracketed IP literal with an optional `%25` zone and port, or a name
with an optional port, unescaped. -/
def parseHost (host : Bytes) : Except ParseError Bytes :=
  if (ascii "[").isPrefixOf host then
    match Strings.splitLast ']'.toUInt8 host with
    | none => .error .missingBracket
    | some (inside, colonPort) =>
        if !validOptionalPort colonPort then .error (.invalidPort colonPort)
        else
          match Strings.splitAt? (ascii "%25") inside with
          | some (before, zone) => (do
              let host1 ← unescape .host before
              let host2 ← unescape .zone zone
              let host3 ← unescape .host (']'.toUInt8 :: colonPort)
              pure (host1 ++ host2 ++ host3)).mapError .escape
          | none => (unescape .host host).mapError .escape
  else
    match Strings.splitLast ':'.toUInt8 host with
    | some (_, port) =>
        if !validOptionalPort (':'.toUInt8 :: port) then .error (.invalidPort (':'.toUInt8 :: port))
        else (unescape .host host).mapError .escape
    | none => (unescape .host host).mapError .escape

/-- `parseAuthority(authority)`: the user information before the last `@`, and the host. -/
def parseAuthority (authority : Bytes) : Except ParseError (Option Userinfo × Bytes) :=
  match Strings.splitLast '@'.toUInt8 authority with
  | none => do
      let host ← parseHost authority
      pure (none, host)
  | some (userinfo, hostPart) => do
      let host ← parseHost hostPart
      if !validUserinfo userinfo then throw .invalidUserinfo
      if ':'.toUInt8 ∉ userinfo then
        let username ← (unescape .userPassword userinfo).mapError .escape
        pure (some ⟨username, [], false⟩, host)
      else
        let r := Strings.cut ':'.toUInt8 userinfo
        let username ← (unescape .userPassword r.1).mapError .escape
        let password ← (unescape .userPassword r.2.1).mapError .escape
        pure (some ⟨username, password, true⟩, host)

/-- `u.setPath(p)`: the unescaped path, and `p` itself as `RawPath` unless it is the default
escaping. -/
def setPath (p : Bytes) : Except ParseError (Bytes × Bytes) := do
  let path ← (unescape .path p).mapError .escape
  pure (path, if escape path .path = p then [] else p)

/-- `u.setFragment(f)`, likewise for the fragment. -/
def setFragment (f : Bytes) : Except ParseError (Bytes × Bytes) := do
  let frag ← (unescape .fragment f).mapError .escape
  pure (frag, if escape frag .fragment = f then [] else f)

/-- The query split of `parse`: a lone trailing `?` forces an empty query. -/
def splitQuery (rest : Bytes) : Bytes × Bool × Bytes :=
  if rest.getLast? = some '?'.toUInt8 ∧ rest.count '?'.toUInt8 = 1 then (rest.dropLast, true, [])
  else
    let r := Strings.cut '?'.toUInt8 rest
    (r.1, false, r.2.1)

/-- The authority step of `parse`: user, host, `OmitHost` and the rest of the path. -/
def parseAuthorityPart (scheme rest : Bytes) :
    Except ParseError (Option Userinfo × Bytes × Bool × Bytes) :=
  if (scheme ≠ [] ∨ !(ascii "///").isPrefixOf rest) ∧ (ascii "//").isPrefixOf rest then
    let r := Strings.cut '/'.toUInt8 (rest.drop 2)
    let (authority, rest') := if r.2.2 then (r.1, '/'.toUInt8 :: r.2.1) else (rest.drop 2, [])
    do
      let (user, host) ← parseAuthority authority
      pure (user, host, false, rest')
  else if scheme ≠ [] ∧ (ascii "/").isPrefixOf rest then .ok (none, [], true, rest)
  else .ok (none, [], false, rest)

/-- `parse(rawURL, false)`: a URL without its fragment. -/
def parseRef (rawURL : Bytes) : Except ParseError URL :=
  if containsCTLByte rawURL then .error .ctl
  else if rawURL = ascii "*" then .ok { path := ascii "*" }
  else do
    let (scheme, rest) ← getScheme rawURL
    let scheme := toLower scheme
    let (rest, forceQuery, rawQuery) := splitQuery rest
    if !(ascii "/").isPrefixOf rest ∧ scheme ≠ [] then
      pure { scheme, opaqueData := rest, forceQuery, rawQuery }
    else if !(ascii "/").isPrefixOf rest ∧ ':'.toUInt8 ∈ (Strings.cut '/'.toUInt8 rest).1 then
      throw .colonInFirstSegment
    else
      let (user, host, omitHost, rest) ← parseAuthorityPart scheme rest
      let (path, rawPath) ← setPath rest
      pure { scheme, user, host, omitHost, path, rawPath, forceQuery, rawQuery }

/-- `url.Parse(rawURL)`. -/
def parse (rawURL : Bytes) : Except ParseError URL :=
  let r := Strings.cut '#'.toUInt8 rawURL
  do
    let url ← parseRef r.1
    if r.2.1 = [] then pure url
    else
      let (fragment, rawFragment) ← setFragment r.2.1
      pure { url with fragment, rawFragment }

/-! ## Printing -/

/-- `u.EscapedPath()`: `RawPath` when it is a valid escaping of `Path`, else the default. -/
def URL.escapedPath (u : URL) : Bytes :=
  if u.rawPath ≠ [] ∧ validEncoded u.rawPath .path ∧ unescape .path u.rawPath = .ok u.path then
    u.rawPath
  else if u.path = ascii "*" then ascii "*"
  else escape u.path .path

/-- `u.EscapedFragment()`. -/
def URL.escapedFragment (u : URL) : Bytes :=
  if u.rawFragment ≠ [] ∧ validEncoded u.rawFragment .fragment ∧
      unescape .fragment u.rawFragment = .ok u.fragment then
    u.rawFragment
  else escape u.fragment .fragment

/-- What `String` writes for the authority: `//`, the user information and the host. -/
def URL.authorityString (u : URL) : Bytes :=
  if u.scheme ≠ [] ∨ u.host ≠ [] ∨ u.user.isSome then
    if u.omitHost ∧ u.host = [] ∧ u.user.isNone then []
    else
      (if u.host ≠ [] ∨ u.path ≠ [] ∨ u.user.isSome then ascii "//" else []) ++
        (match u.user with
          | some ui => ui.string ++ ['@'.toUInt8]
          | none => []) ++
        if u.host ≠ [] then escape u.host .host else []
  else []

/-- `u.String()`. -/
def URL.string (u : URL) : Bytes :=
  let pre := if u.scheme ≠ [] then u.scheme ++ [':'.toUInt8] else []
  let body :=
    if u.opaqueData ≠ [] then u.opaqueData
    else
      let path := u.escapedPath
      let head := u.authorityString ++
        if path ≠ [] ∧ path.head? ≠ some '/'.toUInt8 ∧ u.host ≠ [] then ['/'.toUInt8] else []
      let dot :=
        if pre ++ head = [] ∧ ':'.toUInt8 ∈ (Strings.cut '/'.toUInt8 path).1 then ascii "./"
        else []
      head ++ dot ++ path
  let query := if u.forceQuery ∨ u.rawQuery ≠ [] then '?'.toUInt8 :: u.rawQuery else []
  let frag := if u.fragment ≠ [] then '#'.toUInt8 :: u.escapedFragment else []
  pre ++ body ++ query ++ frag

/-- `u.Query()`: the query parsed, errors dropped. -/
def URL.query (u : URL) : Values := (parseQuery u.rawQuery).1

end Url
end Go
end StepOAuth
