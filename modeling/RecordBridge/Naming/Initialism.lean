import RecordBridge.Text.CaseMapping

/-!
# Initialisms

The abbreviations that Go identifiers spell in capitals throughout.
-/

namespace RecordBridge

/-- The known initialisms, in capitals. -/
def initialisms : List String :=
  ["ACL", "API", "ASCII", "CPU", "CSS", "DNS", "EOF", "GUID", "HTML", "HTTP", "HTTPS", "ID", "IP",
    "JSON", "LHS", "OS", "QPS", "RAM", "RHS", "RPC", "SLA", "SMTP", "SQL", "SSH", "TCP", "TLS",
    "TTL", "UDP", "UI", "UID", "UUID", "URI", "URL", "UTF8", "VM", "XML", "XMPP", "XSRF", "XSS"]

/-- Whether a text is an initialism, in capitals. -/
def isInitialism (s : List Char) : Bool :=
  initialisms.any fun known => known.toList == s

/-- The length of the longest initialism of at most five characters with which a text begins. -/
def initialismStart? (s : List Char) : Option Nat :=
  [5, 4, 3, 2, 1].find? fun n => n ≤ s.length && isInitialism (s.take n)

end RecordBridge
