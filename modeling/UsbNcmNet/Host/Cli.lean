/-
`scripts/coap_cli.py`: one request, and the response printed.

The parser of the response does not look at options.  It takes the token length
from the header and searches for the payload marker from behind the token on.
-/
import UsbNcmNet.Host.Latency

namespace UsbNcmNet

/-- The code as `C.DD`: class, and detail in two digits. -/
def codeString (code : UInt8) : String :=
  let detail := (code &&& 0x1f).toNat
  toString (code >>> 5).toNat ++ "." ++ (if detail < 10 then "0" else "") ++ toString detail

def CODE_NAMES : List (String × String) :=
  [("2.01", "Created"),
    ("2.02", "Deleted"),
    ("2.03", "Valid"),
    ("2.04", "Changed"),
    ("2.05", "Content"),
    ("4.00", "Bad Request"),
    ("4.01", "Unauthorized"),
    ("4.04", "Not Found"),
    ("4.05", "Method Not Allowed"),
    ("5.00", "Internal Server Error")]

/-- `CODE_NAMES.get(code_str, "")`. -/
def codeName (codeStr : String) : String := (CODE_NAMES.lookup codeStr).getD ""

/-- `data.find(b"\xff", start)`. -/
def findMarker (data : Bytes) (start : Nat) : Option Nat :=
  ((data.drop start).findIdx? (· == 0xff)).map (start + ·)

/-- Code, name and payload of a response datagram. -/
def parseResponse (data : Bytes) : String × String × Bytes :=
  if data.length < 4 then ("(short)", "", [])
  else
    let codeStr := codeString (data.getD 1 0)
    let payload := match findMarker data (4 + (data.getD 0 0 &&& 0x0f).toNat) with
      | some marker => data.drop (marker + 1)
      | none => []
    (codeStr, codeName codeStr, payload)

/-- The read loop of `main`: the first datagram with our message id, or a timeout. -/
def receive (mid : Nat) (datagrams : List Bytes) : Option Bytes :=
  datagrams.find? (matchesMid mid)

end UsbNcmNet
