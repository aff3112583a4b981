import ComputerNetworks.Router.VnsReader

/-!
# Long texts from the server

A text of any length goes to the router in banners, the last of them a close if the
session is to end. The router prints the pieces in order and goes on after each
banner; the close ends its main loop. Each piece leaves room for a NUL behind it, so
printing never leaves the block.
-/

namespace ComputerNetworks.Router

open Vns

variable {Site : Type}

/-- A message of the server and what travels. -/
structure Travels (m : VnsMessage) (w : WireMessage) : Prop where
  pack : m.pack = .ok w.body
  type : w.type.toNat = m.getType

/-- The two ways to cut a text differ in the last message. -/
theorem getBannersAndClose_eq (msg : List UInt8) :
    getBannersAndClose msg =
      (getBanners msg).dropLast ++ [.close ⟨bannerSlice msg (msg.length / 255)⟩] := by
  have hbanners : ∀ i ∈ List.range (msg.length / 255),
      (if i + 1 < msg.length / 255 + 1 then VnsMessage.banner ⟨bannerSlice msg i⟩
        else .close ⟨bannerSlice msg i⟩) = .banner ⟨bannerSlice msg i⟩ := by
    intro i hi
    rw [if_pos (Nat.succ_lt_succ (List.mem_range.1 hi))]
  rw [getBannersAndClose, getBanners, bannerCount, List.range_succ, List.map_append,
    List.map_append, List.map_singleton, List.map_singleton, List.dropLast_concat,
    List.map_congr_left hbanners, if_neg (Nat.lt_irrefl _)]

end ComputerNetworks.Router
