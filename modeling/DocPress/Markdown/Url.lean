import DocPress.Markdown.Punycode
import DocPress.Markdown.Entity

/-!
# Addresses

A link target is split into its parts, its host name is put into ASCII where
the scheme calls for it, and the whole is percent-encoded; what was encoded
before stays. The text of an automatic link goes the other way. Addresses
that could run a script are refused.
-/

set_option autoImplicit false

namespace DocPress.Markdown.Url

open Text

structure Parts where
  scheme : List Char := []
  slashes : Bool := false
  user : List Char := []
  port : List Char := []
  host : List Char := []
  fragment : List Char := []
  query : List Char := []
  path : List Char := []
  deriving Repr

/-- The letters that compare equal to ASCII letters when case is ignored. -/
def foldLetter (c : Char) : Char :=
  if c.toNat = 0x17F then 's'
  else if c.toNat = 0x212A then 'k'
  else if c.toNat = 0x130 ∨ c.toNat = 0x131 then 'i'
  else c.toLower

def isSchemeChar (c : Char) : Bool :=
  (foldLetter c).isAlphanum || c == '.' || c == '+' || c == '-'

def splitScheme (s : List Char) : List Char × List Char :=
  let name := s.takeWhile isSchemeChar
  match s.dropWhile isSchemeChar with
  | ':' :: r => if name.isEmpty then ([], s) else (name ++ [':'], r)
  | _ => ([], s)

def slashedSchemes : List (List Char) :=
  ["http:", "https:", "ftp:", "gopher:", "file:"].map String.toList

def scriptScheme : List Char := "javascript:".toList

def endsHost (c : Char) : Bool :=
  ['%', '/', '?', ';', '#', '\'', '\x7b', '\x7d', '|', '\\', '^', '\x60', '<', '>', '"', ' ', '\r',
    '\n', '\t'].contains c

def splitUser (s : List Char) : List Char × List Char :=
  let isEnd (c : Char) : Bool := c == '/' || c == '?' || c == '#'
  let authority := s.takeWhile fun c => !isEnd c
  match authority.reverse.dropWhile (· != '@') with
  | [] => ([], s)
  | _ :: b => (b.reverse, s.drop (b.length + 1))

def splitPort (s : List Char) : List Char × List Char :=
  let digits := (s.reverse.takeWhile Char.isDigit).reverse
  match s.reverse.dropWhile Char.isDigit with
  | ':' :: b => (b.reverse, digits)
  | _ => (s, [])

def isHostChar (c : Char) : Bool := c.isAlphanum || c == '+' || c == '_' || c == '-'

def isHostPart (p : List Char) : Bool := p.all isHostChar && p.length ≤ 63

def splitDots : List Char → List (List Char)
  | [] => [[]]
  | c :: r =>
    if c = '.' then [] :: splitDots r
    else
      match splitDots r with
      | [] => [[c]]
      | p :: ps => (c :: p) :: ps

def joinDots (ps : List (List Char)) : List Char := ['.'].intercalate ps

/-- A host name is cut at its first part that cannot belong to one; the rest goes to the path. -/
def cutHost : List (List Char) → List (List Char) → Option (List Char × List Char)
  | _, [] => none
  | done, p :: ps =>
    let ascii := p.map fun c => if c.toNat > 127 then 'x' else c
    if isHostPart ascii then cutHost (done ++ [p]) ps
    else
      let kept := (p.takeWhile isHostChar).take 63
      some (joinDots (done ++ [kept]), joinDots (p.drop kept.length :: ps))

def maxHostLength : Nat := 255

def inBrackets (host : List Char) : Bool := host.head? == some '[' && host.getLast? == some ']'

def splitTail (s : List Char) : List Char × List Char × List Char :=
  let beforeFragment := s.takeWhile (· != '#')
  (beforeFragment.takeWhile (· != '?'), beforeFragment.dropWhile (· != '?'), s.dropWhile (· != '#'))

def splitHost (s : List Char) : List Char × List Char × List Char :=
  let whole := s.takeWhile fun c => !endsHost c
  let whole := if whole.getLast? = some ':' then whole.dropLast else whole
  let rest := s.drop whole.length
  let (host, port) := splitPort whole
  if inBrackets host then
    let host := if host.length > maxHostLength then [] else host
    (host.drop 1 |>.dropLast, port, rest)
  else
    let (host, rest) := match cutHost [] (splitDots host) with
      | some (h, r) => (h, r ++ rest)
      | none => (host, rest)
    (if host.length > maxHostLength then [] else host, port, rest)

/-- The parts of an address. Two slashes at its start or after its scheme announce a host. -/
def split (url : List Char) : Parts :=
  let (scheme, rest) := splitScheme (strip url)
  let isScript := scheme == scriptScheme
  let (slashes, rest) := match rest with
    | '/' :: '/' :: r => if isScript then (false, rest) else (true, r)
    | _ => (false, rest)
  let hasHost := !isScript && (slashes || (!scheme.isEmpty && !slashedSchemes.contains scheme))
  let (user, rest) := if hasHost then splitUser rest else ([], rest)
  let (host, port, rest) := if hasHost then splitHost rest else ([], [], rest)
  let (path, query, fragment) := splitTail rest
  ⟨scheme, slashes, user, port, host, fragment, query, path⟩

def join (p : Parts) : List Char :=
  p.scheme ++ (if p.slashes then ['/', '/'] else []) ++
    (if p.user.isEmpty then [] else p.user ++ ['@']) ++
    (if p.host.contains ':' then '[' :: p.host ++ [']'] else p.host) ++
    (if p.port.isEmpty then [] else ':' :: p.port) ++ p.path ++ p.query ++ p.fragment

/-- The schemes whose host names are put into ASCII; an address without a scheme is one of them. -/
def recodesHost (p : Parts) : Bool :=
  !p.host.isEmpty &&
    (p.scheme.isEmpty || (["http:", "https:", "mailto:"].map String.toList).contains p.scheme)

def isLabelSeparator (c : Char) : Bool :=
  c == '.' || c.toNat == 0x3002 || c.toNat == 0xFF0E || c.toNat == 0xFF61

def splitLabels : List Char → List (List Char)
  | [] => [[]]
  | c :: r =>
    if isLabelSeparator c then [] :: splitLabels r
    else
      match splitLabels r with
      | [] => [[c]]
      | p :: ps => (c :: p) :: ps

/-- Recode the labels of a host name; of an address of a mailbox, those after the at sign. -/
def mapLabels (f : List Char → Option (List Char)) (host : List Char) : Option (List Char) :=
  let before := host.takeWhile (· != '@')
  let (start, rest) := match host.dropWhile (· != '@') with
    | [] => ([], host)
    | _ :: r => (before ++ ['@'], r.takeWhile (· != '@'))
  ((splitLabels rest).mapM f).map fun ls => start ++ joinDots ls

def asciiMark : List Char := "xn--".toList

def labelToAscii (l : List Char) : Option (List Char) :=
  if l.any (fun c => c.toNat > 0x7E) then some (asciiMark ++ Punycode.encode l) else some l

def labelToUnicode (l : List Char) : Option (List Char) :=
  if asciiMark.isPrefixOf l then Punycode.decode ((l.drop 4).map Char.toLower) else some l

def recodeHost (f : List Char → Option (List Char)) (p : Parts) : Parts :=
  if recodesHost p then { p with host := (mapLabels f p.host).getD p.host } else p

def upperHex (n : Nat) : Char := if n < 10 then Char.ofNat (0x30 + n) else Char.ofNat (0x37 + n)

def percentByte (b : Nat) : List Char := ['%', upperHex (b / 16), upperHex (b % 16)]

def isPlain (c : Char) : Bool :=
  c.isAlphanum || [';', '/', '?', ':', '@', '&', '=', '+', '$', ',', '-', '_', '.', '!', '~', '*',
    '\'', '(', ')', '#'].contains c

def encodeChar (c : Char) : List Char :=
  if isPlain c then [c] else (String.singleton c).toUTF8.toList.flatMap fun b => percentByte b.toNat

/-- Percent-encode an address; what is encoded already stays. -/
def percentEncode : List Char → List Char
  | '%' :: a :: b :: r =>
    if Entity.isHexDigit a && Entity.isHexDigit b then '%' :: a :: b :: percentEncode r
    else encodeChar '%' ++ percentEncode (a :: b :: r)
  | c :: r => encodeChar c ++ percentEncode r
  | [] => []

def staysEncoded (b : Nat) : Bool :=
  [';', '/', '?', ':', '@', '&', '=', '+', '$', ',', '#', '%'].any fun c => c.toNat == b

def isTail (b : Nat) : Bool := 0x80 ≤ b && b ≤ 0xBF

def decodeBytes (bs : List Nat) : Option (List Char) :=
  (String.fromUTF8? (ByteArray.mk (bs.map UInt8.ofNat).toArray)).map String.toList

def replacements (n : Nat) : List Char := List.replicate n Entity.replacement

def decodeRun : List Nat → List Char
  | [] => []
  | b :: bs =>
    if b < 0x80 then (if staysEncoded b then percentByte b else [Char.ofNat b]) ++ decodeRun bs
    else
      match bs with
      | c :: d :: e :: r =>
        if 0xC0 ≤ b && b ≤ 0xDF && isTail c then
          (decodeBytes [b, c]).getD (replacements 2) ++ decodeRun (d :: e :: r)
        else if 0xE0 ≤ b && b ≤ 0xEF && isTail c && isTail d then
          (decodeBytes [b, c, d]).getD (replacements 3) ++ decodeRun (e :: r)
        else if 0xF0 ≤ b && b ≤ 0xF7 && isTail c && isTail d && isTail e then
          (decodeBytes [b, c, d, e]).getD (replacements 4) ++ decodeRun r
        else replacements 1 ++ decodeRun (c :: d :: e :: r)
      | [c, d] =>
        if 0xC0 ≤ b && b ≤ 0xDF && isTail c then
          (decodeBytes [b, c]).getD (replacements 2) ++ decodeRun [d]
        else if 0xE0 ≤ b && b ≤ 0xEF && isTail c && isTail d then
          (decodeBytes [b, c, d]).getD (replacements 3)
        else replacements 1 ++ decodeRun [c, d]
      | [c] =>
        if 0xC0 ≤ b && b ≤ 0xDF && isTail c then (decodeBytes [b, c]).getD (replacements 2)
        else replacements 1 ++ decodeRun [c]
      | [] => replacements 1
termination_by bs => bs.length

/-- Decode the runs of encoded bytes in an address; `run` holds the bytes of the open run. -/
def percentDecodeFrom : List Nat → List Char → List Char
  | run, '%' :: a :: b :: r =>
    if Entity.isHexDigit a && Entity.isHexDigit b then
      percentDecodeFrom (run ++ [16 * Entity.hexValue a + Entity.hexValue b]) r
    else decodeRun run ++ '%' :: percentDecodeFrom [] (a :: b :: r)
  | run, c :: r => decodeRun run ++ c :: percentDecodeFrom [] r
  | run, [] => decodeRun run

def percentDecode (s : List Char) : List Char := percentDecodeFrom [] s

def normalize (url : List Char) : List Char :=
  percentEncode (join (recodeHost labelToAscii (split url)))

def shownText (url : List Char) : List Char :=
  percentDecode (join (recodeHost labelToUnicode (split url)))

def startsWith (s p : List Char) : Bool := p.isPrefixOf s

/-- Addresses that run scripts, open local files or embed data other than images are refused. -/
def isSafe (url : List Char) : Bool :=
  let u := (strip url).map Char.toLower
  if ["vbscript:", "javascript:", "file:", "data:"].any fun p => startsWith u p.toList then
    ["gif;", "png;", "jpeg;", "webp;"].any fun p => startsWith u ("data:image/" ++ p).toList
  else true

end DocPress.Markdown.Url
