import ComputerNetworks.Core.Lines
import ComputerNetworks.Proxy.ParsedHeader

/-!
# Parsing a request in place

`ParsedRequest_parse` copies the request line into a buffer of its own and cuts
it up there by five passes of `strtok_r`, so every field is a pointer into that
buffer; the headers are read from a second, untouched copy of the whole request.
The model keeps both buffers and all pointers.
-/

namespace ComputerNetworks.Proxy

/-- The bytes of an ASCII literal. -/
def ascii (cs : List Char) : List UInt8 := cs.map fun c => UInt8.ofNat c.toNat

/-- What a `char *` field holds. -/
inductive CharPtr where
  /-- The null pointer. -/
  | null
  /-- Never assigned. -/
  | indeterminate
  /-- An offset of `parse->buf`. -/
  | buf (off : Nat)
  /-- A string in a block of its own. -/
  | str (s : List UInt8)
  deriving DecidableEq, Repr

/-- `struct ParsedRequest`. -/
structure ParsedRequest extends HeaderTable where
  method : CharPtr
  protocol : CharPtr
  host : CharPtr
  port : CharPtr
  path : CharPtr
  version : CharPtr
  /-- The request line, cut up in place; null before a parse. -/
  buf : Option (List UInt8)
  buflen : Nat
  deriving DecidableEq, Repr

/-- `MAX_REQ_LEN`. -/
def maxReqLen : Int := 65535

/-- `MIN_REQ_LEN`. -/
def minReqLen : Int := 4

/-- `root_abs_path`. -/
def rootAbsPath : List UInt8 := ascii ['/']

/-- The bytes every accepted version starts with. -/
def httpSlash : List UInt8 := ascii ['H', 'T', 'T', 'P', '/']

/-- The end of the header section. -/
def crlfcrlf : List UInt8 := crlf ++ crlf

namespace ParsedRequest

/-- `ParsedRequest_create`; the port is the one field it does not set. -/
def create : ParsedRequest :=
  { ParsedHeader.create with
    method := .null, protocol := .null, host := .null, port := .indeterminate, path := .null,
    version := .null, buf := none, buflen := 0 }

/-- The string a pointer field reaches. -/
def deref (pr : ParsedRequest) : CharPtr → Run (List UInt8)
  | .null => .error .nullPointer
  | .indeterminate => .error .indeterminate
  | .buf off =>
    match pr.buf with
    | none => .error .dangling
    | some b => cstr b off
  | .str s => .ok s

/-- The last part of the request line: the host token is cut again at `:` and the rest of it
is the port. `errnoEinval` is `errno == EINVAL` after the call of `strtol`. -/
def parseHostPort (errnoEinval : Bool) (parse : ParsedRequest) (b : List UInt8) (host : Nat) :
    Run (Int × ParsedRequest) := do
  let (b, saveptr, host) ← strtokR b host (ascii [':'])
  let (b, _, port) ← strtokR b saveptr (ascii ['/'])
  match host with
  | none =>
    return (-1, { parse with host := .null, port := (port.map .buf).getD .null, buf := none,
                             path := .null })
  | some host =>
    let parse := { parse with host := .buf host }
    match port with
    | none => return (0, { parse with port := .null, buf := some b })
    | some port =>
      let parse := { parse with port := .buf port }
      let n : Int := (strtol (← cstr b port)).bmod (2 ^ 32)
      if n = 0 ∧ errnoEinval then
        return (-1, { parse with buf := none, path := .null })
      return (0, { parse with buf := some b })

/-- The middle part of the request line: protocol, host and path out of the full address. -/
def parseFullAddr (errnoEinval : Bool) (parse : ParsedRequest) (b : List UInt8) (fullAddr : Nat) :
    Run (Int × ParsedRequest) := do
  let (b, saveptr, protocol) ← strtokR b fullAddr (ascii [':', '/', '/'])
  match protocol with
  | none => return (-1, { parse with protocol := .null, buf := none })
  | some protocol =>
    let parse := { parse with protocol := .buf protocol }
    let rem := fullAddr + (← strlen b protocol) + 3
    let absUriLen ← strlen b rem
    let (b, saveptr, host) ← strtokR b saveptr (ascii ['/'])
    match host with
    | none => return (-1, { parse with host := .null, buf := none })
    | some host =>
      let parse := { parse with host := .buf host }
      if (← strlen b host) = absUriLen then
        return (-1, { parse with buf := none })
      let (b, _, path) ← strtokR b saveptr (ascii [' '])
      match path with
      | none => parseHostPort errnoEinval { parse with path := .str rootAbsPath } b host
      | some path =>
        if ← strncmpEq b path rootAbsPath then
          return (-1, { parse with buf := none, path := .null })
        let text ← cstr b path
        parseHostPort errnoEinval { parse with path := .str (rootAbsPath ++ text) } b host

/-- The request line in `b`: method, full address and version, then the address. -/
def parseRequestLine (errnoEinval : Bool) (parse : ParsedRequest) (b : List UInt8) :
    Run (Int × ParsedRequest) := do
  let (b, saveptr, method) ← strtokR b 0 (ascii [' '])
  match method with
  | none => return (-1, { parse with method := .null, buf := none })
  | some method =>
    let parse := { parse with method := .buf method }
    let (b, _, fullAddr) ← strtokR b saveptr (ascii [' '])
    match fullAddr with
    | none => return (-1, { parse with buf := none })
    | some fullAddr =>
      let version := fullAddr + (← strlen b fullAddr) + 1
      let parse := { parse with version := .buf version }
      -- the pointer just computed is never null, so the source's check for it is dead
      if ! (← strncmpEq b version httpSlash) then
        return (-1, { parse with buf := none })
      parseFullAddr errnoEinval parse b fullAddr

end ParsedRequest

namespace ParsedHeader

/-- `ParsedHeader_parse` on the string at offset `line`: the key ends at the first colon of the
whole rest of the request, the value starts two bytes after it and ends at the next CRLF. -/
def parse (reallocOk : Nat → Bool) (t : HeaderTable) (b : List UInt8) (line : Nat) :
    Run (Int × HeaderTable) := do
  match ← index b line 58 with
  | none => return (-1, t)
  | some index1 =>
    let key := (b.drop line).take (index1 - line)
    let index1 := index1 + 2
    match ← strstr b index1 crlf with
    | none => .error .nullPointer
    | some index2 =>
      let value := (b.drop index1).take (index2 - index1)
      -- the result of `ParsedHeader_set` is ignored
      let (_, t) ← set reallocOk t key value
      return (0, t)

/-- One character read through a pointer. -/
def charAt (b : List UInt8) (p : Nat) : Run UInt8 :=
  match b[p]? with
  | none => .error .outOfBounds
  | some c => .ok c

/-- The condition of the header loop: neither the end of the text nor an empty line. -/
def atHeader (b : List UInt8) (currentHeader : Nat) : Run Bool := do
  let c ← charAt b currentHeader
  if c = 0 then
    return false
  if c = 13 then
    return (← charAt b (currentHeader + 1)) != 10
  return true

/-- The step of the header loop: behind the next CRLF, or out of the loop without one. -/
def nextHeader (b : List UInt8) (currentHeader : Nat) : Run (Option Nat) := do
  match ← strstr b currentHeader crlf with
  | none => return none
  | some currentHeader =>
    if (← strlen b currentHeader) < 2 then
      return none
    return some (currentHeader + 2)

/-- The header loop of `ParsedRequest_parse`, from `currentHeader` on. -/
def parseLoop (reallocOk : Nat → Bool) (b : List UInt8) :
    Nat → Nat → HeaderTable → Run (Int × HeaderTable)
  | 0, _, _ => .error .outOfFuel
  | fuel + 1, currentHeader, t => do
    if ! (← atHeader b currentHeader) then
      return (0, t)
    let (ret, t) ← parse reallocOk t b currentHeader
    if ret ≠ 0 then
      return (-1, t)
    match ← nextHeader b currentHeader with
    | none => return (0, t)
    | some currentHeader => parseLoop reallocOk b fuel currentHeader t

end ParsedHeader

namespace ParsedRequest

/-- The headers behind the request line of `tmpBuf`. -/
def parseHeaders (reallocOk : Nat → Bool) (parse : ParsedRequest) (tmpBuf : List UInt8) :
    Run (Int × ParsedRequest) := do
  match ← strstr tmpBuf 0 crlf with
  | none => .error .nullPointer
  | some index =>
    let (ret, t) ← ParsedHeader.parseLoop reallocOk tmpBuf tmpBuf.length (index + 2)
      parse.toHeaderTable
    return (ret, { parse with toHeaderTable := t })

/-- `ParsedRequest_parse` on the first `buflen` bytes of `buf`. -/
def parse (reallocOk : Nat → Bool) (errnoEinval : Bool) (parse : ParsedRequest)
    (buf : List UInt8) (buflen : Int) : Run (Int × ParsedRequest) := do
  if parse.buf ≠ none then
    return (-1, parse)
  if buflen < minReqLen ∨ buflen > maxReqLen then
    return (-1, parse)
  if buf.length < buflen.toNat then
    .error .outOfBounds
  let tmpBuf := buf.take buflen.toNat ++ [0]
  match ← strstr tmpBuf 0 crlfcrlf with
  | none => return (-1, parse)
  | some _ =>
    match ← strstr tmpBuf 0 crlf with
    | none => .error .nullPointer
    | some index =>
      let b := tmpBuf.take index ++ [0]
      let parse := { parse with buf := some b, buflen := index + 1 }
      let (ret, parse) ← parseRequestLine errnoEinval parse b
      if ret ≠ 0 then
        return (ret, parse)
      parseHeaders reallocOk parse tmpBuf

end ParsedRequest

/-- A parsed request with another header store. -/
def ParsedRequest.withHeaders (pr : ParsedRequest) (t : HeaderTable) : ParsedRequest :=
  { pr with toHeaderTable := t }

end ComputerNetworks.Proxy
