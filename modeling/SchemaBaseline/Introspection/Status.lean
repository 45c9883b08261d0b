/-!
# Status codes of answers

The first digit of a status code says what became of a request; the codes that are in use also
have a phrase of their own.
-/

namespace SchemaBaseline.Introspection

structure Status where
  code : Nat
deriving Repr, DecidableEq

namespace Status

/-- Whether a request has succeeded. -/
def isSuccess (s : Status) : Bool :=
  s.code / 100 == 2

/-- What a code outside the successful ones says about an answer. -/
def category (s : Status) : String :=
  match s.code / 100 with
  | 1 => "Informational response"
  | 3 => "Redirect response"
  | 4 => "Client error"
  | 5 => "Server error"
  | _ => "Invalid status code"

/-- The phrases of the codes in use that are not successful. -/
def phrases : List (Nat × String) := [
  (100, "Continue"), (101, "Switching Protocols"), (102, "Processing"), (103, "Early Hints"),
  (300, "Multiple Choices"), (301, "Moved Permanently"), (302, "Found"), (303, "See Other"),
  (304, "Not Modified"), (305, "Use Proxy"), (307, "Temporary Redirect"),
  (308, "Permanent Redirect"), (400, "Bad Request"), (401, "Unauthorized"),
  (402, "Payment Required"), (403, "Forbidden"), (404, "Not Found"), (405, "Method Not Allowed"),
  (406, "Not Acceptable"), (407, "Proxy Authentication Required"), (408, "Request Timeout"),
  (409, "Conflict"), (410, "Gone"), (411, "Length Required"), (412, "Precondition Failed"),
  (413, "Request Entity Too Large"), (414, "Request-URI Too Long"),
  (415, "Unsupported Media Type"), (416, "Requested Range Not Satisfiable"),
  (417, "Expectation Failed"), (418, "I'm a teapot"), (421, "Misdirected Request"),
  (422, "Unprocessable Entity"), (423, "Locked"), (424, "Failed Dependency"), (425, "Too Early"),
  (426, "Upgrade Required"), (428, "Precondition Required"), (429, "Too Many Requests"),
  (431, "Request Header Fields Too Large"), (451, "Unavailable For Legal Reasons"),
  (500, "Internal Server Error"), (501, "Not Implemented"), (502, "Bad Gateway"),
  (503, "Service Unavailable"), (504, "Gateway Timeout"), (505, "HTTP Version Not Supported"),
  (506, "Variant Also Negotiates"), (507, "Insufficient Storage"), (508, "Loop Detected"),
  (510, "Not Extended"), (511, "Network Authentication Required")]

/-- The phrase of a code; empty if the code has none. -/
def phrase (s : Status) : String :=
  (phrases.lookup s.code).getD ""

/-- The page that explains a code. -/
def explainedAt (s : Status) : String :=
  "https://developer.mozilla.org/en-US/docs/Web/HTTP/Status/" ++ toString s.code

/-- The complaint about an answer that is not successful. -/
def complaint (s : Status) (url : String) : String :=
  s!"{s.category} '{s.code} {s.phrase}' for url '{url}'\n" ++
    s!"For more information check: {s.explainedAt}"

end Status

end SchemaBaseline.Introspection
