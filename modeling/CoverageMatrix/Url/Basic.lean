import CoverageMatrix.Url.Percent

/-!
Addresses of pages and files in their normal form.
-/
namespace CoverageMatrix

namespace Url

/-- The part of an address that says whose it is. -/
structure Authority where
  /-- The name of a user, escaped; empty for none. -/
  user : List Char := []
  /-- The password of the user, escaped. -/
  password : Option (List Char) := none
  /-- The host in its normal form; empty for none. -/
  host : List Char
  /-- The number behind the host, if the scheme does not imply it. -/
  number : Option Nat := none

def Authority.chars (a : Authority) : List Char :=
  let password := match a.password with
    | none => []
    | some password => ':' :: password
  let user := a.user ++ password
  let number := match a.number with
    | none => []
    | some n => ':' :: (toString n).toList
  (if user.isEmpty then [] else user ++ ['@']) ++ a.host ++ number

end Url

structure Url where
  scheme : List Char
  authority : Option Url.Authority
  path : List Char
  /-- What follows a question mark, escaped. -/
  query : Option (List Char)
  /-- What follows a number sign, escaped. -/
  fragment : Option (List Char)

namespace Url

/-- The text of an address. A path without an authority may not begin like one. -/
def text (u : Url) : String :=
  let front := match u.authority with
    | some a => '/' :: '/' :: a.chars
    | none => if ['/', '/'].isPrefixOf u.path then ['/', '.'] else []
  let query := match u.query with
    | none => []
    | some q => '?' :: q
  let fragment := match u.fragment with
    | none => []
    | some f => '#' :: f
  String.ofList (u.scheme ++ ':' :: front ++ u.path ++ query ++ fragment)

/-- The host of an address; empty for none. -/
def host (u : Url) : List Char :=
  match u.authority with
  | some a => a.host
  | none => []

/-- The address without its user, if the user's name and password are texts. -/
def withoutUser (u : Url) : Url :=
  match u.authority with
  | none => u
  | some a =>
    match unescaped? a.user with
    | none => u
    | some user =>
      let password := a.password.bind unescaped?
      if user.isEmpty ∧ password.isNone then u
      else { u with authority := some { a with user := [], password := none } }

end Url
end CoverageMatrix
