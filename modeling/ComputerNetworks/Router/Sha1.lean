import ComputerNetworks.Core.SecureHash
import ComputerNetworks.Router.Packet

/-!
# The digest of the router

`sha1.c`: the context, the functions that work on it, and what each of them does to
the message the context stands for. An index into the block outside of it, and a word
of the sequence read before it is assigned, are faults.
-/

namespace ComputerNetworks.Router

open SecureHash

variable {Site : Type}

/-- `SHA1Context`. -/
structure Sha1Context where
  messageDigest : Fin 5 → UInt32
  lengthLow : UInt32
  lengthHigh : UInt32
  messageBlock : List UInt8
  messageBlock_length : messageBlock.length = 64
  messageBlockIndex : Nat
  computed : Bool
  corrupted : Bool

/-- `SHA1CircularShift`. -/
def sha1CircularShift (bits word : UInt32) : UInt32 :=
  ((word <<< bits) &&& 0xFFFFFFFF) ||| (word >>> (32 - bits))

/-- `SHA1Reset`. -/
def sha1Reset (context : Sha1Context) : Sha1Context :=
  { context with
    lengthLow := 0
    lengthHigh := 0
    messageBlockIndex := 0
    messageDigest := ![0x67452301, 0xEFCDAB89, 0x98BADCFE, 0x10325476, 0xC3D2E1F0]
    computed := false
    corrupted := false }

/-- A write of octets into the block. -/
def Sha1Context.write (context : Sha1Context) (i : Nat) (octets : List UInt8) :
    Exec Site Sha1Context :=
  match h : (memcpyAt context.messageBlock i octets : Exec Site (List UInt8)) with
  | .error fault => .error fault
  | .ok block =>
    .ok { context with
      messageBlock := block
      messageBlock_length := (memcpyAt_length h).trans context.messageBlock_length }

/-- `Message_Block[Message_Block_Index++] = c`. -/
def Sha1Context.put (context : Sha1Context) (c : UInt8) : Exec Site Sha1Context := do
  let context ← context.write context.messageBlockIndex [c]
  pure { context with messageBlockIndex := context.messageBlockIndex + 1 }

/-- A word of the array `W`, of which the first words are assigned. -/
def readW (w : List UInt32) (t : Nat) : Exec Site UInt32 := w[t]?.elim (.error .indeterminate) .ok

/-- The loop for the first words: `n` more of them. -/
def firstWords (block : List UInt8) : Nat → List UInt32 → Exec Site (List UInt32)
  | 0, w => .ok w
  | n + 1, w => do
    let t := w.length
    let b0 ← load8 block (t * 4)
    let b1 ← load8 block (t * 4 + 1)
    let b2 ← load8 block (t * 4 + 2)
    let b3 ← load8 block (t * 4 + 3)
    firstWords block n (w ++
      [(b0.toUInt32 <<< 24) ||| (b1.toUInt32 <<< 16) ||| (b2.toUInt32 <<< 8) ||| b3.toUInt32])

/-- The loop for the other words: `n` more of them. -/
def laterWords : Nat → List UInt32 → Exec Site (List UInt32)
  | 0, w => .ok w
  | n + 1, w => do
    let t := w.length
    let w3 ← readW w (t - 3)
    let w8 ← readW w (t - 8)
    let w14 ← readW w (t - 14)
    let w16 ← readW w (t - 16)
    laterWords n (w ++ [sha1CircularShift 1 (w3 ^^^ w8 ^^^ w14 ^^^ w16)])

/-- The word buffers. -/
structure WordBuffers where
  a : UInt32
  b : UInt32
  c : UInt32
  d : UInt32
  e : UInt32

/-- A loop over the word buffers: `n` rounds from `t` on, with the function and the constant of the
loop. -/
def roundLoop (w : List UInt32) (f : UInt32 → UInt32 → UInt32 → UInt32) (k : UInt32) :
    Nat → Nat → WordBuffers → Exec Site WordBuffers
  | 0, _, v => .ok v
  | n + 1, t, v => do
    let temp := sha1CircularShift 5 v.a + f v.b v.c v.d + v.e + (← readW w t) + k
    roundLoop w f k n (t + 1) ⟨temp &&& 0xFFFFFFFF, v.a, sha1CircularShift 30 v.b, v.c, v.d⟩

/-- `SHA1ProcessMessageBlock`. -/
def sha1ProcessMessageBlock (context : Sha1Context) : Exec Site Sha1Context := do
  let w ← firstWords context.messageBlock 16 []
  let w ← laterWords 64 w
  let h := context.messageDigest
  let v ← roundLoop w (fun b c d => (b &&& c) ||| (~~~b &&& d)) 0x5A827999 20 0
    ⟨h 0, h 1, h 2, h 3, h 4⟩
  let v ← roundLoop w (fun b c d => b ^^^ c ^^^ d) 0x6ED9EBA1 20 20 v
  let v ← roundLoop w (fun b c d => (b &&& c) ||| (b &&& d) ||| (c &&& d)) 0x8F1BBCDC 20 40 v
  let v ← roundLoop w (fun b c d => b ^^^ c ^^^ d) 0xCA62C1D6 20 60 v
  pure { context with
    messageDigest := ![(h 0 + v.a) &&& 0xFFFFFFFF, (h 1 + v.b) &&& 0xFFFFFFFF,
      (h 2 + v.c) &&& 0xFFFFFFFF, (h 3 + v.d) &&& 0xFFFFFFFF, (h 4 + v.e) &&& 0xFFFFFFFF]
    messageBlockIndex := 0 }

/-- The counting of an octet: its eight bits are added to the length. -/
def Sha1Context.count (context : Sha1Context) : Sha1Context :=
  let lengthLow := (context.lengthLow + 8) &&& 0xFFFFFFFF
  if lengthLow = 0 then
    let lengthHigh := (context.lengthHigh + 1) &&& 0xFFFFFFFF
    -- a message that is too long
    if lengthHigh = 0 then { context with lengthLow, lengthHigh, corrupted := true }
    else { context with lengthLow, lengthHigh }
  else { context with lengthLow }

/-- The loop of `SHA1Input` over `n` octets of the array. -/
def sha1InputLoop : Nat → List UInt8 → Sha1Context → Exec Site Sha1Context
  | 0, _, context => .ok context
  | n + 1, messageArray, context =>
    if context.corrupted then .ok context
    else do
      let context ← context.put ((← load8 messageArray 0) &&& 0xFF)
      let context := context.count
      let context ←
        if context.messageBlockIndex = 64 then sha1ProcessMessageBlock context else pure context
      sha1InputLoop n messageArray.tail context

/-- `SHA1Input`. -/
def sha1Input (context : Sha1Context) (messageArray : List UInt8) (length : UInt32) :
    Exec Site Sha1Context :=
  if length = 0 then .ok context
  else if context.computed || context.corrupted then .ok { context with corrupted := true }
  else sha1InputLoop length.toNat messageArray context

/-- A loop that fills the block with zeros up to an index. -/
def fillLoop (limit : Nat) : Nat → Sha1Context → Exec Site Sha1Context
  | 0, context => if context.messageBlockIndex < limit then .error .outOfFuel else .ok context
  | fuel + 1, context =>
    if context.messageBlockIndex < limit then do fillLoop limit fuel (← context.put 0)
    else .ok context

/-- `SHA1PadMessage`. No loop fills more than the block. -/
def sha1PadMessage (context : Sha1Context) : Exec Site Sha1Context := do
  let context ←
    if context.messageBlockIndex > 55 then do
      let context ← context.put 0x80
      let context ← fillLoop 64 64 context
      let context ← sha1ProcessMessageBlock context
      fillLoop 56 64 context
    else do
      let context ← context.put 0x80
      fillLoop 56 64 context
  let high := context.lengthHigh
  let low := context.lengthLow
  let context ← context.write 56
    [((high >>> 24) &&& 0xFF).toUInt8, ((high >>> 16) &&& 0xFF).toUInt8,
      ((high >>> 8) &&& 0xFF).toUInt8, (high &&& 0xFF).toUInt8,
      ((low >>> 24) &&& 0xFF).toUInt8, ((low >>> 16) &&& 0xFF).toUInt8,
      ((low >>> 8) &&& 0xFF).toUInt8, (low &&& 0xFF).toUInt8]
  sha1ProcessMessageBlock context

/-- `SHA1Result`: whether the digest is in the context. -/
def sha1Result (context : Sha1Context) : Exec Site (Sha1Context × Bool) := do
  if context.corrupted then pure (context, false)
  else if !context.computed then do
    let context ← sha1PadMessage context
    pure ({ context with computed := true }, true)
  else pure (context, true)

/-- The digest of `abc`. -/
example : (do
    let context : Sha1Context :=
      ⟨fun _ => 0, 0, 0, List.replicate 64 0xAA, List.length_replicate, 0, false, false⟩
    let context ← sha1Input (sha1Reset context) [97, 98, 99] 3
    let (context, computed) ← sha1Result context
    pure (computed, List.ofFn context.messageDigest) : Exec Unit (Bool × List UInt32)) =
      .ok (true, [0xA9993E36, 0x4706816A, 0xBA3E2571, 0x7850C26C, 0x9CD0D89D]) := by
  decide +kernel

end ComputerNetworks.Router
