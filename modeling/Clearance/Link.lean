/-
# Links

A link is an optional scheme, an optional host after two slashes, a path, a query and a
fragment. Here a link is only checked to be well formed; the first thing wrong with it is
reported.
-/
import Clearance.Text.Quoted
import Clearance.Text.Search

namespace Clearance.Link

/-- The part of a link that a text stands in. -/
inductive Part where
  | host
  | other
deriving DecidableEq, Repr

/-- The text before the first occurrence of a character, and the text after it if there is
one. -/
def cut (c : Char) (cs : List Char) : List Char × Option (List Char) :=
  match cs.dropWhile (· != c) with
  | [] => (cs, none)
  | _ :: rest => (cs.takeWhile (· != c), some rest)

/-- The text before the last occurrence of a character and from it on. -/
def cutLast? (c : Char) (cs : List Char) : Option (List Char × List Char) :=
  (Text.lastIndexOf? [c] cs).map fun i => (cs.take i, cs.drop i)

/-- Hexadecimal digits. -/
def isHex (c : Char) : Bool :=
  c.isDigit || 'a' ≤ c && c ≤ 'f' || 'A' ≤ c && c ≤ 'F'

/-- Characters that stand for themselves in a host. -/
def isHostChar (c : Char) : Bool :=
  c.toNat ≥ 128 || c.isAlphanum || "!$&\x27()*+,;=:[]<>\x22-_.~".toList.contains c

/-- What is wrong with the escapes or characters of a part. -/
def escapeFault? (part : Part) : List Char → Option String
  | [] => none
  | '%' :: rest =>
    let shown := Text.quoteBytes 3 ('%' :: rest)
    match rest with
    | a :: b :: _ =>
      if !(isHex a && isHex b) then some ("invalid URL escape " ++ shown)
      else if part == .host && '0' ≤ a && a < '8' && !(a == '2' && b == '5') then
        some ("invalid URL escape " ++ shown)
      else escapeFault? part rest
    | _ => some ("invalid URL escape " ++ shown)
  | c :: rest =>
    if part == .host && !isHostChar c then
      some ("invalid character " ++ Text.quote c.toString ++ " in host name")
    else escapeFault? part rest

/-- The number after a host: nothing, or a colon and digits. -/
def isHostNumber : List Char → Bool
  | [] => true
  | c :: ds => c == ':' && ds.all Char.isDigit

/-- What is wrong with a host and its number. -/
def hostFault? (host : List Char) : Option String :=
  let number? := match cutLast? '[' host with
    | some _ => (cutLast? ']' host).map fun (_, tail) => tail.drop 1
    | none => some (((cutLast? ':' host).map Prod.snd).getD [])
  match number? with
  | none => some "missing ']' in host"
  | some number =>
    if isHostNumber number then escapeFault? .host host
    else some ("invalid port " ++ Text.quote (String.ofList number) ++ " after host")

/-- Characters of the part of an authority that names a user. -/
def isUserChar (c : Char) : Bool := c.isAlphanum || "-._:~!$&\x27()*+,;=%@".toList.contains c

/-- What is wrong with a host, its number and its user. -/
def authorityFault? (authority : List Char) : Option String :=
  match cutLast? '@' authority with
  | none => hostFault? authority
  | some (user, host) =>
    (hostFault? (host.drop 1)).or <|
      if user.all isUserChar then escapeFault? .other user
      else some "net/url: invalid userinfo"

/-- The scheme of a link, empty when it has none, and what follows it. -/
def scheme : List Char → Except String (List Char × List Char)
  | [] => .ok ([], [])
  | ':' :: _ => .error "missing protocol scheme"
  | c :: cs =>
    let isMark := fun (c : Char) => c.isAlphanum || c == '+' || c == '-' || c == '.'
    match cs.dropWhile isMark with
    | ':' :: rest => if c.isAlpha then .ok (c :: cs.takeWhile isMark, rest) else .ok ([], c :: cs)
    | _ => .ok ([], c :: cs)

/-- What is wrong with a link without its fragment. -/
def bodyFault? (link : List Char) : Option String :=
  if link.any fun c => c.toNat < 32 || c.toNat = 127 then
    some "net/url: invalid control character in URL"
  else match scheme link with
    | .error e => some e
    | .ok (name, rest) =>
      let rest := (cut '?' rest).1
      match rest with
      | '/' :: '/' :: '/' :: _ => if name.isEmpty then escapeFault? .other rest else
        escapeFault? .other (rest.drop 2)
      | '/' :: '/' :: more =>
        (authorityFault? (more.takeWhile (· != '/'))).or
          (escapeFault? .other (more.dropWhile (· != '/')))
      | '/' :: _ => escapeFault? .other rest
      | _ =>
        if !name.isEmpty then none
        else if (rest.takeWhile (· != '/')).contains ':' then
          some "first path segment in URL cannot contain colon"
        else escapeFault? .other rest

/-- What is wrong with a link. -/
def fault? (link : String) : Option String :=
  let wording := fun (shown : String) (m : String) => "parse " ++ Text.quote shown ++ ": " ++ m
  let (body, fragment) := cut '#' link.toList
  ((bodyFault? body).map (wording (String.ofList body))).or
    ((escapeFault? .other (fragment.getD [])).map (wording link))

end Clearance.Link
