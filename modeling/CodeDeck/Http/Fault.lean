import CodeDeck.Json.Parser
import CodeDeck.Text.Encoding
import CodeDeck.Text.Quoted

/-!
Why the reply to a request cannot be used: there is none, the address has no type, the status is no
success, or the body is not JSON.
-/

namespace CodeDeck.Http

open CodeDeck.Text

inductive Fault where
  | lost (reason : String)
  | untyped (url : String)
  | status (code : Nat) (url : String)
  | undecodable (u : Undecodable)
  | malformed (m : Json.Malformed)
  deriving DecidableEq, Repr

def reasonPhrase : Nat → String
  | 100 => "Continue" | 101 => "Switching Protocols" | 102 => "Processing" | 103 => "Early Hints"
  | 300 => "Multiple Choices" | 301 => "Moved Permanently" | 302 => "Found" | 303 => "See Other"
  | 304 => "Not Modified" | 305 => "Use Proxy" | 307 => "Temporary Redirect"
  | 308 => "Permanent Redirect"
  | 400 => "Bad Request" | 401 => "Unauthorized" | 402 => "Payment Required" | 403 => "Forbidden"
  | 404 => "Not Found" | 405 => "Method Not Allowed" | 406 => "Not Acceptable"
  | 407 => "Proxy Authentication Required" | 408 => "Request Timeout" | 409 => "Conflict"
  | 410 => "Gone" | 411 => "Length Required" | 412 => "Precondition Failed"
  | 413 => "Request Entity Too Large" | 414 => "Request-URI Too Long"
  | 415 => "Unsupported Media Type" | 416 => "Requested Range Not Satisfiable"
  | 417 => "Expectation Failed" | 418 => "I'm a teapot" | 421 => "Misdirected Request"
  | 422 => "Unprocessable Entity" | 423 => "Locked" | 424 => "Failed Dependency"
  | 425 => "Too Early" | 426 => "Upgrade Required" | 428 => "Precondition Required"
  | 429 => "Too Many Requests" | 431 => "Request Header Fields Too Large"
  | 451 => "Unavailable For Legal Reasons"
  | 500 => "Internal Server Error" | 501 => "Not Implemented" | 502 => "Bad Gateway"
  | 503 => "Service Unavailable" | 504 => "Gateway Timeout" | 505 => "HTTP Version Not Supported"
  | 506 => "Variant Also Negotiates" | 507 => "Insufficient Storage" | 508 => "Loop Detected"
  | 510 => "Not Extended" | 511 => "Network Authentication Required"
  | _ => ""

def statusClass (code : Nat) : String :=
  match code / 100 with
  | 1 => "Informational response"
  | 3 => "Redirect response"
  | 4 => "Client error"
  | 5 => "Server error"
  | _ => "Invalid status code"

def Fault.message : Fault → String
  | lost reason => reason
  | untyped url => "unknown url type: " ++ quotedString url
  | status code url =>
    statusClass code ++ " '" ++ toString code ++ " " ++ reasonPhrase code ++ "' for url '" ++ url
      ++ "'\nFor more information check: https://developer.mozilla.org/en-US/docs/Web/HTTP/Status/"
      ++ toString code
  | undecodable u => u.message
  | malformed m => m.message

end CodeDeck.Http
