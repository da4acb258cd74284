import ObZrv.Lib.LittleEndian

/-!
# Unifs.Protocol

The wire constants and the integer helpers of `unifs/protocol.hpp`.

A frame is `[len:u32][req_id:u16][cmd_or_status:u8][payload...]`, all integers little-endian. The
helpers read from and write to a byte list in place of a pointer; a reader looks at the first
bytes of the list it is given.
-/

namespace ObZrv

open Lib

def FRAME_HEADER_SIZE : Nat := 7
def MAX_PAYLOAD_SIZE : Nat := 1048576

def CMD_FS_READDIR : UInt8 := 0x01
def CMD_FS_REMOVE : UInt8 := 0x06
def CMD_FILE_OPEN : UInt8 := 0x11
def CMD_FILE_SEEK : UInt8 := 0x12
def CMD_FILE_TELL : UInt8 := 0x13
def CMD_FILE_READ : UInt8 := 0x14
def CMD_FILE_WRITE : UInt8 := 0x15
def CMD_FILE_CLOSE : UInt8 := 0x16
def CMD_HEARTBEAT : UInt8 := 0xFF

def STATUS_OK : UInt8 := 0x00
def STATUS_ERR_GENERIC : UInt8 := 0x01
def STATUS_ERR_NOT_FOUND : UInt8 := 0x02

def FILE_FLAG_READ : UInt8 := 0x01
def FILE_FLAG_WRITE : UInt8 := 0x02
def FILE_FLAG_RDWR : UInt8 := 0x03
def FILE_FLAG_APPEND : UInt8 := 0x04

def protoReadU16 (p : List UInt8) : UInt16 := UInt16.ofNat (leNat (p.take 2))
def protoReadU32 (p : List UInt8) : UInt32 := UInt32.ofNat (leNat (p.take 4))
def protoReadU64 (p : List UInt8) : UInt64 := UInt64.ofNat (leNat (p.take 8))

def protoReadI64 (p : List UInt8) : Int := Int.bmod (protoReadU64 p).toNat (2 ^ 64)

def protoWriteU16 (v : UInt16) : List UInt8 := leBytes 2 v.toNat
def protoWriteU32 (v : UInt32) : List UInt8 := leBytes 4 v.toNat
def protoWriteU64 (v : UInt64) : List UInt8 := leBytes 8 v.toNat
def protoWriteI64 (v : Int) : List UInt8 := protoWriteU64 (UInt64.ofInt v)

@[simp] theorem protoWriteU16_length (v : UInt16) : (protoWriteU16 v).length = 2 :=
  leBytes_length 2 _

@[simp] theorem protoWriteU32_length (v : UInt32) : (protoWriteU32 v).length = 4 :=
  leBytes_length 4 _

@[simp] theorem protoWriteU64_length (v : UInt64) : (protoWriteU64 v).length = 8 :=
  leBytes_length 8 _

@[simp] theorem protoReadU16_write (v : UInt16) (rest : List UInt8) :
    protoReadU16 (protoWriteU16 v ++ rest) = v := by
  have hv := v.toNat_lt
  apply UInt16.toNat_inj.mp
  rw [protoReadU16, protoWriteU16, leNat_take_leBytes, UInt16.toNat_ofNat']
  omega

@[simp] theorem protoReadU32_write (v : UInt32) (rest : List UInt8) :
    protoReadU32 (protoWriteU32 v ++ rest) = v := by
  have hv := v.toNat_lt
  apply UInt32.toNat_inj.mp
  rw [protoReadU32, protoWriteU32, leNat_take_leBytes, UInt32.toNat_ofNat']
  omega

@[simp] theorem protoReadU64_write (v : UInt64) (rest : List UInt8) :
    protoReadU64 (protoWriteU64 v ++ rest) = v := by
  have hv := v.toNat_lt
  apply UInt64.toNat_inj.mp
  rw [protoReadU64, protoWriteU64, leNat_take_leBytes, UInt64.toNat_ofNat']
  omega

theorem ofInt_toNat (v : Int) : (UInt64.ofInt v).toNat = (v % 18446744073709551616).toNat := by
  have hlt : (v % 18446744073709551616).toNat < UInt64.size := by
    rw [UInt64.size]
    omega
  exact UInt64.toNat_ofNat_of_lt' hlt

theorem protoReadI64_write {v : Int} (hlo : -9223372036854775808 ≤ v) (hhi : v < 9223372036854775808)
    (rest : List UInt8) : protoReadI64 (protoWriteI64 v ++ rest) = v := by
  unfold protoReadI64 protoWriteI64
  rw [protoReadU64_write]
  have hwrap := ofInt_toNat v
  generalize (UInt64.ofInt v).toNat = n at hwrap ⊢
  subst hwrap
  rw [Int.bmod_def]
  omega

theorem protoWriteU16_read {p : List UInt8} (h : 2 ≤ p.length) :
    protoWriteU16 (protoReadU16 p) = p.take 2 := by
  rw [protoWriteU16, protoReadU16, UInt16.toNat_ofNat_of_lt' (leNat_take_lt 2 p),
    leBytes_leNat_take h]

theorem protoWriteU32_read {p : List UInt8} (h : 4 ≤ p.length) :
    protoWriteU32 (protoReadU32 p) = p.take 4 := by
  rw [protoWriteU32, protoReadU32, UInt32.toNat_ofNat_of_lt' (leNat_take_lt 4 p),
    leBytes_leNat_take h]

theorem protoWriteU64_read {p : List UInt8} (h : 8 ≤ p.length) :
    protoWriteU64 (protoReadU64 p) = p.take 8 := by
  rw [protoWriteU64, protoReadU64, UInt64.toNat_ofNat_of_lt' (leNat_take_lt 8 p),
    leBytes_leNat_take h]

/-- What `RemoteConn::send_request` gives back: `RemoteConn::Response`. -/
structure Response where
  status : UInt8
  payload : List UInt8
deriving DecidableEq, Repr

/-- The response made up on the client side when there is none from the server. -/
def Response.err : Response := { status := STATUS_ERR_GENERIC, payload := [] }

end ObZrv
