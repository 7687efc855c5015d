import CodeDeck.Http.Exchange
import CodeDeck.Http.Url
import CodeDeck.Text.Base64

/-!
Clients for a base address. References are joined to the base, and the address that comes of it is brought to
normal form.
-/

namespace CodeDeck.Http

open CodeDeck.Text

/-- The address that references are joined to, and the token of the client. -/
structure Endpoint where
  base : Url
  token : Option String
  deriving DecidableEq, Repr

def mediaType : String := "application/vnd.github+json"

def bearer (token : String) : String := "Bearer " ++ token

namespace Endpoint

/-- The token becomes part of a header and so has to be ASCII. -/
def of (address : String) (token : Option String) : Except CodeDeck.Fault Endpoint :=
  match (Url.ofText? address.toList).bind Url.asBase? with
  | none => .error .invalidAddress
  | some base =>
    match token.bind fun token => notAscii? (bearer token).toList with
    | some problem => .error (.notAscii problem)
    | none => .ok ⟨base, token⟩

/-- The address that a reference names below the base; its query gives way to another one. -/
def url? (e : Endpoint) (reference : List Char) (query : Option (List Char)) : Option Url := do
  let url ← e.base.join? reference
  match query with
  | none => return url
  | some query => url.withParts? url.path (some query)

/-- A user in the address takes the place of the token. -/
def request (e : Endpoint) (url : Url) : Request :=
  { url := String.ofList url.render
    accept := mediaType
    authorization :=
      match url.credentials? with
      | some credentials =>
        some ("Basic " ++ String.ofList (Base64.encode (Utf8.encode credentials)))
      | none => e.token.map bearer }

def callTo (e : Endpoint) (url : Url) : Call := ⟨e.request url, url.target, url.hasType⟩

def client (e : Endpoint) : Client where
  call reference query :=
    match e.url? reference query with
    | some url => .ok (e.callTo url)
    | none => .error .invalidAddress

end Endpoint

def connect : Connector := fun address token => (Endpoint.of address token).map Endpoint.client

end CodeDeck.Http
