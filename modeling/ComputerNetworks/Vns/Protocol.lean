import ComputerNetworks.Core.InetAddress

/-!
# The VNS messages

The ten message classes of `VNSProtocol.py`, with their fields, formats, declared
lengths, encoders and decoders. A message travels behind its length and its type.
-/

namespace ComputerNetworks.Vns

/-- The exceptions an encoder or a decoder raises. -/
inductive VnsError where
  /-- `struct.error`. -/
  | struct
  /-- `socket.error`, for a text that is no address. -/
  | socket
  /-- `VNSProtocolException`. -/
  | protocol (msg : String)
  deriving DecidableEq, Repr

/-- What `struct` returns, or its exception. -/
def orStruct {α : Type} (out : Option α) : Except VnsError α := out.elim (.error .struct) .ok

/-- What `inet_aton` and `inet_ntoa` return, or their exception. -/
def orSocket {α : Type} (out : Option α) : Except VnsError α := out.elim (.error .socket) .ok

/-- `IDSIZE`. -/
def idsize : Nat := 32

/-- Opens a topology for a virtual host and a user. -/
structure VNSOpen where
  topoId : Int
  vhost : List UInt8
  user : List UInt8
  pw : List UInt8
  deriving DecidableEq, Repr

namespace VNSOpen

/-- The type of an opening message. -/
def getType : Nat := 1

/-- `VNSOpen.FORMAT`: the topology and a number of padding, then three texts. -/
def format : List StructField := [.uint 2, .uint 2, .text idsize, .text idsize, .text idsize]

/-- `VNSOpen.SIZE`. -/
def size : Nat := calcsize format

/-- Every opening message declares the same length. -/
def length (_ : VNSOpen) : Nat := size

/-- The encoder sends 0 as padding. -/
def pack (m : VNSOpen) : Except VnsError (List UInt8) :=
  orStruct (structPack format (m.topoId, 0, m.vhost, m.user, m.pw, ()))

/-- The decoder strips the NULs of the three texts. -/
def unpack (body : List UInt8) : Except VnsError VNSOpen := do
  -- the second number is padding
  let (topoId, _, vhost, user, pw, ()) ← orStruct (structUnpack format body)
  pure ⟨topoId, stripNulls vhost, stripNulls user, stripNulls pw⟩

end VNSOpen

/-- Ends a session, with a last text for the user. -/
structure VNSClose where
  msg : List UInt8
  deriving DecidableEq, Repr

namespace VNSClose

/-- The type of a close. -/
def getType : Nat := 2

/-- `VNSClose.FORMAT`. -/
def format : List StructField := [.text 256]

/-- `VNSClose.SIZE`. -/
def size : Nat := calcsize format

/-- Every close declares the same length. -/
def length (_ : VNSClose) : Nat := size

/-- The encoder pads the text with NULs, and cuts what is too long. -/
def pack (m : VNSClose) : Except VnsError (List UInt8) := orStruct (structPack format (m.msg, ()))

/-- The decoder strips the NULs of the text. -/
def unpack (body : List UInt8) : Except VnsError VNSClose := do
  let (msg, ()) ← orStruct (structUnpack format body)
  pure ⟨stripNulls msg⟩

end VNSClose

/-- A frame on an interface. -/
structure VNSPacket where
  intfName : List UInt8
  ethernetFrame : List UInt8
  deriving DecidableEq, Repr

namespace VNSPacket

/-- The type of a packet. -/
def getType : Nat := 4

/-- `VNSPacket.HEADER_FORMAT`. -/
def headerFormat : List StructField := [.text 16]

/-- `VNSPacket.HEADER_SIZE`. -/
def headerSize : Nat := calcsize headerFormat

/-- A packet is as long as its header and its frame. -/
def length (m : VNSPacket) : Nat := headerSize + m.ethernetFrame.length

/-- The encoder puts the frame behind the name of its interface. -/
def pack (m : VNSPacket) : Except VnsError (List UInt8) := do
  let header ← orStruct (structPack headerFormat (m.intfName, ()))
  pure (header ++ m.ethernetFrame)

/-- The decoder takes what follows the name as the frame. -/
def unpack (body : List UInt8) : Except VnsError VNSPacket := do
  let (intfName, ()) ← orStruct (structUnpack headerFormat (body.take headerSize))
  pure ⟨stripNulls intfName, body.drop headerSize⟩

end VNSPacket

/-- An interface of a hardware description; the constructor checks the sizes of its addresses. -/
structure VNSInterface where
  name : List UInt8
  mac : List UInt8
  ip : List UInt8
  mask : List UInt8
  mac_length : mac.length = 6
  ip_length : ip.length = 4
  mask_length : mask.length = 4
  deriving DecidableEq, Repr

namespace VNSInterface

/-- The constructor. -/
def init (name mac ip mask : List UInt8) : Except VnsError VNSInterface :=
  if hmac : mac.length = 6 then
    if hip : ip.length = 4 then
      if hmask : mask.length = 4 then .ok ⟨name, mac, ip, mask, hmac, hip, hmask⟩
      else .error (.protocol "IP address mask must be 4B")
    else .error (.protocol "IP address must be 4B")
  else .error (.protocol "MAC address must be 6B")

/-- `HWINTERFACE`, the kind of the entry that holds the name. -/
def hwInterface : Int := 1

/-- `HWSPEED`. -/
def hwSpeed : Int := 2

/-- `HWSUBNET`. -/
def hwSubnet : Int := 4

/-- `HWETHER`, the kind of the entry that holds the Ethernet address. -/
def hwEther : Int := 32

/-- `HWETHIP`, the kind of the entry that holds the address. -/
def hwEthIp : Int := 64

/-- `HWMASK`, the kind of the entry that holds the mask. -/
def hwMask : Int := 128

/-- `VNSInterface.FORMAT`: six entries, each a kind and a value of 32 bytes. -/
def format : List StructField :=
  [.uint 4, .text 32, .uint 4, .uint 4, .text 28, .uint 4, .text 32, .uint 4, .text 4, .text 28,
    .uint 4, .uint 4, .text 28, .uint 4, .text 4, .text 28]

/-- `VNSInterface.SIZE`. -/
def size : Nat := calcsize format

/-- The encoder sends no speed and no subnet. -/
def pack (intf : VNSInterface) : Except VnsError (List UInt8) :=
  orStruct (structPack format
    (hwInterface, intf.name, hwSpeed, 0, [], hwEther, intf.mac, hwEthIp, intf.ip, [],
      hwSubnet, 0, [], hwMask, intf.mask, [], ()))

end VNSInterface

/-- A text for the user. -/
structure VNSBanner where
  msg : List UInt8
  deriving DecidableEq, Repr

namespace VNSBanner

/-- The type of a banner. -/
def getType : Nat := 8

/-- `VNSBanner.FORMAT`. -/
def format : List StructField := [.text 256]

/-- `VNSBanner.SIZE`. -/
def size : Nat := calcsize format

/-- Every banner declares the same length. -/
def length (_ : VNSBanner) : Nat := size

/-- The encoder pads the text with NULs, and cuts what is too long. -/
def pack (m : VNSBanner) : Except VnsError (List UInt8) := orStruct (structPack format (m.msg, ()))

/-- The decoder strips the NULs of the text. -/
def unpack (body : List UInt8) : Except VnsError VNSBanner := do
  let (msg, ()) ← orStruct (structUnpack format body)
  pure ⟨stripNulls msg⟩

end VNSBanner

/-- The interfaces of a router. There is no decoder. -/
structure VNSHardwareInfo where
  interfaces : List VNSInterface
  deriving DecidableEq, Repr

namespace VNSHardwareInfo

/-- The type of a hardware description. -/
def getType : Nat := 16

/-- A hardware description is as long as its interfaces. -/
def length (m : VNSHardwareInfo) : Nat := m.interfaces.length * VNSInterface.size

/-- The encoder puts the interfaces one behind the other. -/
def pack (m : VNSHardwareInfo) : Except VnsError (List UInt8) :=
  List.flatten <$> m.interfaces.mapM VNSInterface.pack

end VNSHardwareInfo

/-- A routing table for a virtual host. -/
structure VNSRtable where
  vrhost : List UInt8
  rtable : List UInt8
  deriving DecidableEq, Repr

namespace VNSRtable

/-- The type of a routing table. -/
def getType : Nat := 32

/-- `VNSRtable.HEADER_FORMAT`. -/
def headerFormat : List StructField := [.text idsize]

/-- `VNSRtable.HEADER_SIZE`. -/
def headerSize : Nat := calcsize headerFormat

/-- A routing table is as long as its header and its text. -/
def length (m : VNSRtable) : Nat := headerSize + m.rtable.length

/-- The encoder puts the table behind the name of the host. -/
def pack (m : VNSRtable) : Except VnsError (List UInt8) := do
  let header ← orStruct (structPack headerFormat (m.vrhost, ()))
  pure (header ++ m.rtable)

/-- The decoder cuts the body by slices, which never fails. -/
def unpack (body : List UInt8) : Except VnsError VNSRtable :=
  .ok ⟨stripNulls (body.take idsize), body.drop idsize⟩

end VNSRtable

/-- A source filter: an address in dotted notation and the number of bits of its mask. -/
abbrev SrcFilter := List UInt8 × Int

/-- `NO_SRC_FILTERS`. -/
def noSrcFilters : List SrcFilter := [(dotted 0 0 0 0, 0)]

/-- There is at least one filter. -/
structure VNSOpenTemplate where
  templateName : List UInt8
  vrhost : List UInt8
  srcFilters : List SrcFilter
  srcFilters_ne : srcFilters ≠ []
  deriving DecidableEq, Repr

namespace VNSOpenTemplate

/-- The type of a template. -/
def getType : Nat := 64

/-- The constructor. -/
def init (templateName vrhost : List UInt8) (srcFilters : List SrcFilter) : VNSOpenTemplate :=
  if h : srcFilters = [] then ⟨templateName, vrhost, noSrcFilters, List.cons_ne_nil _ _⟩
  else ⟨templateName, vrhost, srcFilters, h⟩

/-- `VNSOpenTemplate.HEADER_FORMAT`. -/
def headerFormat : List StructField := [.text 30, .text idsize]

/-- `VNSOpenTemplate.HEADER_SIZE`. -/
def headerSize : Nat := calcsize headerFormat

/-- The declared length counts 30 bytes that the encoder does not send. -/
def length (m : VNSOpenTemplate) : Nat := headerSize + 30 + 5 * m.srcFilters.length

/-- A filter in a body. -/
def packFilter (filter : SrcFilter) : Except VnsError (List UInt8) := do
  let ip ← orSocket (inetAton filter.1)
  let mask ← orStruct (structPack [.uint 1] (filter.2, ()))
  pure (ip ++ mask)

/-- The encoder puts the filters behind the two names. -/
def pack (m : VNSOpenTemplate) : Except VnsError (List UInt8) := do
  let body ← List.flatten <$> m.srcFilters.mapM packFilter
  let header ← orStruct (structPack headerFormat (m.templateName, m.vrhost, ()))
  pure (header ++ body)

/-- The filter at an index. -/
def unpackFilter (sfBytes : List UInt8) (i : Nat) : Except VnsError SrcFilter := do
  let ip ← orSocket (inetNtoa ((sfBytes.drop (i * 5)).take 4))
  let (mask, ()) ← orStruct (structUnpack [.uint 1] ((sfBytes.drop (i * 5 + 4)).take 1))
  if mask < 0 ∨ mask > 32 then
    .error (.protocol s!"mask must be between 0 and 32 but it was {mask}")
  else pure (ip, mask)

/-- The decoder reads as many filters as the body has room for. -/
def unpack (body : List UInt8) : Except VnsError VNSOpenTemplate := do
  let (templateName, vrhost, ()) ← orStruct (structUnpack headerFormat (body.take headerSize))
  let sfBytes := body.drop headerSize
  let srcFilters ← (List.range (sfBytes.length / 5)).mapM (unpackFilter sfBytes)
  pure (init (stripNulls templateName) (stripNulls vrhost) srcFilters)

end VNSOpenTemplate

/-- Asks for an authentication over a salt. -/
structure VNSAuthRequest where
  salt : List UInt8
  deriving DecidableEq, Repr

namespace VNSAuthRequest

/-- The type of an authentication request. -/
def getType : Nat := 128

/-- A request is as long as its salt. -/
def length (m : VNSAuthRequest) : Nat := m.salt.length

/-- The encoder sends the salt as it is. -/
def pack (m : VNSAuthRequest) : Except VnsError (List UInt8) := .ok m.salt

/-- The decoder takes the whole body as the salt. -/
def unpack (body : List UInt8) : Except VnsError VNSAuthRequest := .ok ⟨body⟩

end VNSAuthRequest

/-- Answers an authentication request with a user name and a digest. -/
structure VNSAuthReply where
  username : List UInt8
  ssp : List UInt8
  deriving DecidableEq, Repr

namespace VNSAuthReply

/-- The type of a reply. -/
def getType : Nat := 256

/-- The declared length leaves out the four bytes of the length of the name. -/
def length (m : VNSAuthReply) : Nat := m.username.length + m.ssp.length

/-- The encoder puts the length of the name before it. -/
def pack (m : VNSAuthReply) : Except VnsError (List UInt8) := do
  let header ← orStruct (structPack [.uint 4] (m.username.length, ()))
  pure (header ++ m.username ++ m.ssp)

/-- The decoder splits the body after the name. -/
def unpack (body : List UInt8) : Except VnsError VNSAuthReply := do
  let (usernameLen, ()) ← orStruct (structUnpack [.uint 4] (body.take 4))
  let body := body.drop 4
  pure ⟨body.take usernameLen.toNat, body.drop usernameLen.toNat⟩

end VNSAuthReply

/-- Tells whether the authentication succeeded. -/
structure VNSAuthStatus where
  authOk : Bool
  msg : List UInt8
  deriving DecidableEq, Repr

namespace VNSAuthStatus

/-- The type of a status. -/
def getType : Nat := 512

/-- A status is one byte longer than its text. -/
def length (m : VNSAuthStatus) : Nat := 1 + m.msg.length

/-- The encoder sends the verdict as one byte. -/
def pack (m : VNSAuthStatus) : Except VnsError (List UInt8) := do
  let header ← orStruct (structPack [.uint 1] (if m.authOk then 1 else 0, ()))
  pure (header ++ m.msg)

/-- The decoder takes every byte but 0 as a success. -/
def unpack (body : List UInt8) : Except VnsError VNSAuthStatus := do
  let (authOk, ()) ← orStruct (structUnpack [.uint 1] (body.take 1))
  pure ⟨authOk ≠ 0, body.drop 1⟩

end VNSAuthStatus

/-- A message of one of the ten classes in `VNS_MESSAGES`. -/
inductive VnsMessage where
  | open (m : VNSOpen)
  | close (m : VNSClose)
  | packet (m : VNSPacket)
  | banner (m : VNSBanner)
  | hardwareInfo (m : VNSHardwareInfo)
  | rtable (m : VNSRtable)
  | openTemplate (m : VNSOpenTemplate)
  | authRequest (m : VNSAuthRequest)
  | authReply (m : VNSAuthReply)
  | authStatus (m : VNSAuthStatus)
  deriving DecidableEq, Repr

namespace VnsMessage

/-- The type of the class of a message. -/
def getType : VnsMessage → Nat
  | .open _ => VNSOpen.getType
  | .close _ => VNSClose.getType
  | .packet _ => VNSPacket.getType
  | .banner _ => VNSBanner.getType
  | .hardwareInfo _ => VNSHardwareInfo.getType
  | .rtable _ => VNSRtable.getType
  | .openTemplate _ => VNSOpenTemplate.getType
  | .authRequest _ => VNSAuthRequest.getType
  | .authReply _ => VNSAuthReply.getType
  | .authStatus _ => VNSAuthStatus.getType

/-- The length that a message declares. -/
def length : VnsMessage → Nat
  | .open m => m.length
  | .close m => m.length
  | .packet m => m.length
  | .banner m => m.length
  | .hardwareInfo m => m.length
  | .rtable m => m.length
  | .openTemplate m => m.length
  | .authRequest m => m.length
  | .authReply m => m.length
  | .authStatus m => m.length

/-- The encoder of the class of a message. -/
def pack : VnsMessage → Except VnsError (List UInt8)
  | .open m => m.pack
  | .close m => m.pack
  | .packet m => m.pack
  | .banner m => m.pack
  | .hardwareInfo m => m.pack
  | .rtable m => m.pack
  | .openTemplate m => m.pack
  | .authRequest m => m.pack
  | .authReply m => m.pack
  | .authStatus m => m.pack

/-- The decoder of the class of a type in `VNS_MESSAGES`, where it has one. -/
def unpack (type : Nat) (body : List UInt8) : Option (Except VnsError VnsMessage) :=
  if type = VNSOpen.getType then some (.open <$> VNSOpen.unpack body)
  else if type = VNSClose.getType then some (.close <$> VNSClose.unpack body)
  else if type = VNSPacket.getType then some (.packet <$> VNSPacket.unpack body)
  else if type = VNSBanner.getType then some (.banner <$> VNSBanner.unpack body)
  else if type = VNSRtable.getType then some (.rtable <$> VNSRtable.unpack body)
  else if type = VNSOpenTemplate.getType then some (.openTemplate <$> VNSOpenTemplate.unpack body)
  else if type = VNSAuthRequest.getType then some (.authRequest <$> VNSAuthRequest.unpack body)
  else if type = VNSAuthReply.getType then some (.authReply <$> VNSAuthReply.unpack body)
  else if type = VNSAuthStatus.getType then some (.authStatus <$> VNSAuthStatus.unpack body)
  else none

end VnsMessage

/-- The number of pieces of a text. -/
def bannerCount (msg : List UInt8) : Nat := msg.length / 255 + 1

/-- `msg[i*255:(i+1)*255]`. -/
def bannerSlice (msg : List UInt8) (i : Nat) : List UInt8 := (msg.drop (i * 255)).take 255

/-- `get_banners`. -/
def getBanners (msg : List UInt8) : List VnsMessage :=
  (List.range (bannerCount msg)).map fun i => .banner ⟨bannerSlice msg i⟩

/-- `get_banners_and_close`. -/
def getBannersAndClose (msg : List UInt8) : List VnsMessage :=
  (List.range (bannerCount msg)).map fun i =>
    if i + 1 < bannerCount msg then .banner ⟨bannerSlice msg i⟩ else .close ⟨bannerSlice msg i⟩

/-- A message on the wire: its length and its type, both big-endian, and its body. -/
def ltFrame (type : Nat) (body : List UInt8) : List UInt8 :=
  bigEndian 4 (8 + body.length) ++ (bigEndian 4 type ++ body)

end ComputerNetworks.Vns
