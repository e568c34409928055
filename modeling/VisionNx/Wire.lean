import VisionNx.Json

/-! # The wire format

    Control msg  : <uint32 BE length> <utf8 JSON payload>
    Frame msg    : <uint32 BE length> <utf8 JSON header> <h * stride body bytes>

Both sides write a length in front of every JSON text; the body of a frame follows its
header without one. -/

namespace VisionNx

open Python

/-! ## Length prefixes -/

/-- `kMaxFrameBytes`. -/
def maxFrameBytes : ℕ := 64 * 1024 * 1024

/-- The bytes of `htonl(n)`. -/
def be32 (n : ℕ) : List UInt8 :=
  [UInt8.ofNat (n / 2 ^ 24), UInt8.ofNat (n / 2 ^ 16), UInt8.ofNat (n / 2 ^ 8), UInt8.ofNat n]

/-- `ntohl`, or `struct.unpack(">I", _)`. -/
def beValue (bytes : List UInt8) : ℕ := bytes.foldl (fun acc byte => acc * 256 + byte.toNat) 0

/-- A text with its length in front. -/
def framed (payload : List UInt8) : List UInt8 := be32 payload.length ++ payload

@[simp] theorem length_be32 (n : ℕ) : (be32 n).length = 4 := rfl

@[simp] theorem length_framed (payload : List UInt8) : (framed payload).length = 4 + payload.length := by
  simp [framed]

theorem beValue_be32 {n : ℕ} (small : n < 2 ^ 32) : beValue (be32 n) = n := by
  simp only [beValue, be32, List.foldl_cons, List.foldl_nil, UInt8.toNat_ofNat']
  omega

/-! ## What the client sends -/

/-- `static_cast<double>` of a 64-bit integer: 53 bits, from halfway to the even one. -/
def toDouble (n : ℤ) : ℚ :=
  let ulp : ℚ := 2 ^ (Nat.log2 n.natAbs - 52)
  roundEven (n / ulp) * ulp

inductive ClientMessage where
  | attach
  | detach
  | config (extra : List (String × Json))
  | frame (frameId tsUs w h stride : ℤ) (body : List UInt8)

namespace ClientMessage

/-- The JSON object of a message. -/
def fields (cameraUuid : String) : ClientMessage → List (String × Json)
  | attach => Json.set "camera_uuid" (.str cameraUuid) (Json.set "type" (.str "attach") [])
  | detach => Json.set "camera_uuid" (.str cameraUuid) (Json.set "type" (.str "detach") [])
  | config extra => Json.set "camera_uuid" (.str cameraUuid) (Json.set "type" (.str "config") extra)
  | frame frameId tsUs w h stride _ =>
    [("camera_uuid", .str cameraUuid), ("h", .num h), ("id", .num (toDouble frameId)),
      ("stride", .num stride), ("ts_us", .num (toDouble tsUs)), ("type", .str "frame"), ("w", .num w)]

/-- The bytes that follow the JSON object. -/
def body : ClientMessage → List UInt8
  | frame _ _ _ _ _ body => body
  | _ => []

/-- The text of a message. -/
def text (dump : Json → List UInt8) (cameraUuid : String) (m : ClientMessage) : List UInt8 :=
  dump (.obj (m.fields cameraUuid))

/-- The bytes of a message. -/
def encode (dump : Json → List UInt8) (cameraUuid : String) (m : ClientMessage) : List UInt8 :=
  framed (m.text dump cameraUuid) ++ m.body

end ClientMessage

/-- Numbers of up to 53 bits are sent as they are. -/
theorem toDouble_of_small {n : ℤ} (small : n.natAbs < 2 ^ 53) : toDouble n = n := by
  have bits : Nat.log2 n.natAbs - 52 = 0 := by
    by_cases zero : n.natAbs = 0
    · simp [zero]
    · have := (Nat.log2_lt zero).mpr small
      omega
  simp [toDouble, bits]

end VisionNx
