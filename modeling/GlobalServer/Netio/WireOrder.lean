import GlobalServer.Netio.FrameBytes
import GlobalServer.Netio.Packet

/-!
# Headers in network order

`AppHeadFrame` and `PacketHeader` go over the wire as `h2n` leaves them. On a
little-endian host that is every field big-endian, so that a receiver, whatever
its own order, finds the sender's fields.
-/

namespace GlobalServer

open Bytes

theorem toNat_htons (x : UInt16) : (htons x).toNat = swap 2 x.toNat := UInt16.toNat_ofNat_of_lt' (swap_lt 2 _)

theorem toNat_htonl (x : UInt32) : (htonl x).toNat = swap 4 x.toNat := UInt32.toNat_ofNat_of_lt' (swap_lt 4 _)

theorem toNat_htonll (val : UInt64) : (htonll val).toNat = swap 8 val.toNat := by
  have hv := val.toNat_lt
  have split : ∀ n, leBytes 8 n = leBytes 4 (n % 2 ^ 32) ++ leBytes 4 (n / 2 ^ 32) := by
    intro n
    have he : 256 ^ 4 = 2 ^ 32 := by decide
    rw [leBytes_add 4 4 n, ← leBytes_mod 4 n, he]
  have hlow := swap_lt 4 (val.toNat % 2 ^ 32)
  have hhigh := swap_lt 4 (val.toNat / 2 ^ 32)
  have hn : (htonll val).toNat = swap 4 (val.toNat % 2 ^ 32) * 2 ^ 32 + swap 4 (val.toNat / 2 ^ 32) := by
    unfold htonll
    rw [toNat_or_shift, toNat_htonl, toNat_htonl, toNat_low, toNat_high]
  have hb : leBytes 8 (htonll val).toNat = (leBytes 8 val.toNat).reverse := by
    rw [split, split val.toNat, List.reverse_append, ← leBytes_swap, ← leBytes_swap, hn]
    congr 2 <;> omega
  rw [swap, ← hb, leNat_leBytes 8 _ (htonll val).toNat_lt]

namespace AppHeadFrame

theorem words_h2n (f : AppHeadFrame) : f.h2n.words = List.zipWith swap widths f.words := by
  simp [words, h2n, widths, toNat_htons, toNat_htonl, toNat_htonll]

theorem toBytes_h2n (f : AppHeadFrame) : f.h2n.toBytes = packBe widths f.words := by
  rw [toBytes, words_h2n, pack_zipWith_swap]

end AppHeadFrame

namespace PacketHeader

theorem toBytes_h2n (h : PacketHeader) : h.h2n.toBytes = packBe [4, 4] [h.timestamp, h.size] := by
  simp [toBytes, h2n, packBe, leBytes_swap, beBytes_eq]

end PacketHeader

/-- Both conversions undo each other, and what lies on the wire is big-endian and read back by any receiver. -/
theorem headers_in_order :
    (∀ f : AppHeadFrame, f.h2n.n2h = f ∧ f.n2h.h2n = f ∧ f.h2n.toBytes = packBe AppHeadFrame.widths f.words ∧
      ∀ rest, (AppHeadFrame.ofBytes (f.h2n.toBytes ++ rest)).n2h = f) ∧
    ∀ h : PacketHeader, h.WF → h.h2n.n2h = h ∧ h.n2h.h2n = h ∧
      h.h2n.toBytes = packBe [4, 4] [h.timestamp, h.size] ∧
      ∀ rest, (PacketHeader.ofBytes ((h.h2n.toBytes ++ rest).take PacketHeader.hdrlen)).n2h = h := by
  constructor
  · intro f
    refine ⟨f.n2h_h2n, f.h2n_n2h, f.toBytes_h2n, fun rest => ?_⟩
    rw [AppHeadFrame.ofBytes_toBytes, AppHeadFrame.n2h_h2n]
  · intro h hw
    exact ⟨h.n2h_h2n hw, h.h2n_n2h hw, h.toBytes_h2n, PacketHeader.n2h_ofBytes_take hw⟩

theorem headers_in_order_packet : (packetHeader 5).h2n.toBytes = [0, 0xFC, 0xFC, 0xFC, 0, 0, 0, 5] := by
  rw [(headers_in_order.2 (packetHeader 5) (packetHeader_wf (by decide))).2.2.1]
  decide

end GlobalServer
