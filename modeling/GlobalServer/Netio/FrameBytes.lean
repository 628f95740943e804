import GlobalServer.Lib.Layout
import GlobalServer.Transaction.Frame

/-!
# The bytes of a frame

`AppHeadFrame` is packed, and lies in memory on a little-endian host. A frame
is in network order when each of its words has been converted by `h2n`.
-/

namespace GlobalServer

open Bytes

def ntohs (x : UInt16) : UInt16 := UInt16.ofNat (swap 2 x.toNat)

def htons (x : UInt16) : UInt16 := UInt16.ofNat (swap 2 x.toNat)

def ntohl (x : UInt32) : UInt32 := UInt32.ofNat (swap 4 x.toNat)

def htonl (x : UInt32) : UInt32 := UInt32.ofNat (swap 4 x.toNat)

/-- The halves of the word change places, each with its own bytes converted. -/
def ntohll (val : UInt64) : UInt64 :=
  ((htonl (val <<< 32 >>> 32).toUInt32).toUInt64 <<< 32) ||| (htonl (val >>> 32).toUInt32).toUInt64

def htonll (val : UInt64) : UInt64 :=
  ((htonl (val <<< 32 >>> 32).toUInt32).toUInt64 <<< 32) ||| (htonl (val >>> 32).toUInt32).toUInt64

theorem htons_ntohs (x : UInt16) : htons (ntohs x) = x := by
  have hx : x.toNat < 256 ^ 2 := x.toNat_lt
  have hs : swap 2 x.toNat < 2 ^ 16 := swap_lt 2 _
  unfold htons ntohs
  rw [UInt16.toNat_ofNat_of_lt' hs, swap_swap 2 _ hx, UInt16.ofNat_toNat]

theorem htonl_htonl (x : UInt32) : htonl (htonl x) = x := by
  have hx : x.toNat < 256 ^ 4 := x.toNat_lt
  have hs : swap 4 x.toNat < 2 ^ 32 := swap_lt 4 _
  unfold htonl
  rw [UInt32.toNat_ofNat_of_lt' hs, swap_swap 4 _ hx, UInt32.ofNat_toNat]

theorem htonl_ntohl (x : UInt32) : htonl (ntohl x) = x := htonl_htonl x

theorem toNat_or_shift (a b : UInt32) : ((a.toUInt64 <<< 32) ||| b.toUInt64).toNat = a.toNat * 2 ^ 32 + b.toNat := by
  have ha := a.toNat_lt
  have hb := b.toNat_lt
  have hm : a.toNat * 2 ^ 32 < 2 ^ 64 := by omega
  rw [UInt64.toNat_or, UInt64.toNat_shiftLeft]
  simp only [UInt32.toNat_toUInt64, UInt64.reduceToNat, Nat.reduceMod, Nat.shiftLeft_eq, Nat.mod_eq_of_lt hm]
  rw [Nat.mul_comm, ← Nat.two_pow_add_eq_or_of_lt hb, Nat.mul_comm]

theorem toNat_low (val : UInt64) : (val <<< 32 >>> 32).toUInt32.toNat = val.toNat % 2 ^ 32 := by
  have hv := val.toNat_lt
  simp only [UInt64.toNat_toUInt32, UInt64.toNat_shiftRight, UInt64.toNat_shiftLeft, UInt64.reduceToNat,
    Nat.reduceMod,
    Nat.shiftLeft_eq, Nat.shiftRight_eq_div_pow]
  omega

theorem toNat_high (val : UInt64) : (val >>> 32).toUInt32.toNat = val.toNat / 2 ^ 32 := by
  have hv := val.toNat_lt
  simp only [UInt64.toNat_toUInt32, UInt64.toNat_shiftRight, UInt64.reduceToNat, Nat.reduceMod,
    Nat.shiftRight_eq_div_pow]
  omega

theorem htonll_ntohll (val : UInt64) : htonll (ntohll val) = val := by
  have low : ∀ a b : UInt32, (((a.toUInt64 <<< 32) ||| b.toUInt64) <<< 32 >>> 32).toUInt32 = b := by
    intro a b
    apply UInt32.toNat_inj.mp
    have hb := b.toNat_lt
    rw [toNat_low, toNat_or_shift]
    omega
  have high : ∀ a b : UInt32, (((a.toUInt64 <<< 32) ||| b.toUInt64) >>> 32).toUInt32 = a := by
    intro a b
    apply UInt32.toNat_inj.mp
    have hb := b.toNat_lt
    rw [toNat_high, toNat_or_shift]
    omega
  unfold htonll ntohll
  rw [low, high, htonl_htonl, htonl_htonl]
  apply UInt64.toNat_inj.mp
  have hv := val.toNat_lt
  rw [toNat_or_shift, toNat_high, toNat_low]
  omega

namespace AppHeadFrame

/-- `sizeof(AppHeadFrame)` -/
def size : Nat := 50

def widths : List Nat := [2, 2, 2, 4, 4, 4, 4, 4, 4, 4, 4, 8, 4]

/-- The words of a frame in the order of its fields. -/
def words (f : AppHeadFrame) : List Nat :=
  [f.isBroadcast.toNat, f.srcZone.toNat, f.dstZone.toNat, f.srcSvrType.toNat, f.dstSvrType.toNat, f.srcInstId.toNat,
    f.dstInstId.toNat, f.srcTransId.toNat, f.dstTransId.toNat, f.cmd.toNat, f.cmdLength.toNat, f.userid.toNat,
    f.reqRandom.toNat]

def ofWords : List Nat → AppHeadFrame
  | [isBroadcast, srcZone, dstZone, srcSvrType, dstSvrType, srcInstId, dstInstId, srcTransId, dstTransId, cmd, cmdLength, userid,
      reqRandom] =>
    { isBroadcast := UInt16.ofNat isBroadcast
      srcZone := UInt16.ofNat srcZone
      dstZone := UInt16.ofNat dstZone
      srcSvrType := UInt32.ofNat srcSvrType
      dstSvrType := UInt32.ofNat dstSvrType
      srcInstId := UInt32.ofNat srcInstId
      dstInstId := UInt32.ofNat dstInstId
      srcTransId := UInt32.ofNat srcTransId
      dstTransId := UInt32.ofNat dstTransId
      cmd := UInt32.ofNat cmd
      cmdLength := UInt32.ofNat cmdLength
      userid := UInt64.ofNat userid
      reqRandom := UInt32.ofNat reqRandom }
  | _ => {}

/-- The frame's bytes in memory. -/
def toBytes (f : AppHeadFrame) : List UInt8 := pack widths f.words

/-- The frame that lies at the front of some memory. -/
def ofBytes (l : List UInt8) : AppHeadFrame := ofWords (unpack widths l)

def n2h (f : AppHeadFrame) : AppHeadFrame :=
  { isBroadcast := ntohs f.isBroadcast
    srcZone := ntohs f.srcZone
    dstZone := ntohs f.dstZone
    srcSvrType := ntohl f.srcSvrType
    dstSvrType := ntohl f.dstSvrType
    srcInstId := ntohl f.srcInstId
    dstInstId := ntohl f.dstInstId
    srcTransId := ntohl f.srcTransId
    dstTransId := ntohl f.dstTransId
    cmd := ntohl f.cmd
    cmdLength := ntohl f.cmdLength
    userid := ntohll f.userid
    reqRandom := ntohl f.reqRandom }

def h2n (f : AppHeadFrame) : AppHeadFrame :=
  { isBroadcast := htons f.isBroadcast
    srcZone := htons f.srcZone
    dstZone := htons f.dstZone
    srcSvrType := htonl f.srcSvrType
    dstSvrType := htonl f.dstSvrType
    srcInstId := htonl f.srcInstId
    dstInstId := htonl f.dstInstId
    srcTransId := htonl f.srcTransId
    dstTransId := htonl f.dstTransId
    cmd := htonl f.cmd
    cmdLength := htonl f.cmdLength
    userid := htonll f.userid
    reqRandom := htonl f.reqRandom }

theorem fits_words (f : AppHeadFrame) : Fits widths f.words :=
  ⟨f.isBroadcast.toNat_lt, f.srcZone.toNat_lt, f.dstZone.toNat_lt, f.srcSvrType.toNat_lt, f.dstSvrType.toNat_lt,
    f.srcInstId.toNat_lt, f.dstInstId.toNat_lt, f.srcTransId.toNat_lt, f.dstTransId.toNat_lt, f.cmd.toNat_lt,
    f.cmdLength.toNat_lt,
    f.userid.toNat_lt, f.reqRandom.toNat_lt, trivial⟩

theorem ofWords_words (f : AppHeadFrame) : ofWords f.words = f := by
  simp [ofWords, words]

theorem words_ofWords : ∀ {ns : List Nat}, Fits widths ns → (ofWords ns).words = ns
  | [_, _, _, _, _, _, _, _, _, _, _, _, _], ⟨h1, h2, h3, h4, h5, h6, h7, h8, h9, h10, h11, h12, h13, _⟩ => by
    simp only [ofWords, words, UInt16.toNat_ofNat_of_lt' h1, UInt16.toNat_ofNat_of_lt' h2, UInt16.toNat_ofNat_of_lt' h3,
      UInt32.toNat_ofNat_of_lt' h4, UInt32.toNat_ofNat_of_lt' h5, UInt32.toNat_ofNat_of_lt' h6,
      UInt32.toNat_ofNat_of_lt' h7,
      UInt32.toNat_ofNat_of_lt' h8, UInt32.toNat_ofNat_of_lt' h9, UInt32.toNat_ofNat_of_lt' h10,
      UInt32.toNat_ofNat_of_lt' h11,
      UInt64.toNat_ofNat_of_lt' h12, UInt32.toNat_ofNat_of_lt' h13]

@[simp] theorem length_toBytes (f : AppHeadFrame) : f.toBytes.length = size := length_pack f.fits_words

theorem ofBytes_toBytes (f : AppHeadFrame) (l : List UInt8) : ofBytes (f.toBytes ++ l) = f := by
  rw [ofBytes, toBytes, unpack_pack f.fits_words, ofWords_words]

theorem toBytes_ofBytes {l : List UInt8} (h : size ≤ l.length) : (ofBytes l).toBytes = l.take size := by
  have hs : widths.sum ≤ l.length := h
  rw [ofBytes, toBytes, words_ofWords (fits_unpack hs), pack_unpack hs]
  rfl

theorem h2n_n2h (f : AppHeadFrame) : f.n2h.h2n = f := by
  simp only [h2n, n2h, htons_ntohs, htonl_ntohl, htonll_ntohll]

theorem n2h_h2n (f : AppHeadFrame) : f.h2n.n2h = f := h2n_n2h f

end AppHeadFrame

end GlobalServer
