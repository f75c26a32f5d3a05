import Zaza.Cxx

/-!
What the TURN server takes from outside its own sources.

`Host` gathers the functions it links against: OpenSSL's digests and Boost's
IPv4 address conversions. They are parameters of every definition that calls
them, with the digest sizes in their types; where a proof relies on more, the
statement says so (`AddressesRoundTrip`). `Env` is what one call of the server
reads from its surroundings: the clocks, the random numbers, the order in which
hash maps are walked.

`dottedQuad` and `inetPton` are dotted-decimal text and its reader, as POSIX
describes them. They are one `Host` for which addresses round-trip
(`Host.posix`), its digests known at the inputs that are listed.
-/
namespace Zaza

structure Host where
  hmacSha1 : (key data : Bytes) → Vector UInt8 20
  hmacSha256 : (key data : Bytes) → Vector UInt8 32
  md5 : Bytes → Vector UInt8 16
  sha256 : Bytes → Vector UInt8 32
  base64Encode : Bytes → Bytes
  /-- `address_v4(ip).to_string()`. -/
  addressToString : UInt32 → Bytes
  /-- `make_address_v4(s, ec).to_uint()`, `none` when `ec` is set. -/
  makeAddressV4 : Bytes → Option UInt32

/-- Boost reads back the text it writes for an address. -/
def Host.AddressesRoundTrip (host : Host) : Prop :=
  ∀ ip, host.makeAddressV4 (host.addressToString ip) = some ip

/-- `steady_clock::time_point`, in nanoseconds. -/
abbrev TimePoint := Nat

/-- `std::chrono::seconds` on that clock. -/
def seconds (n : UInt32) : Nat := n.toNat * 1000000000

/-- What one call reads from its surroundings. -/
structure Env where
  /-- `steady_clock::now()`. -/
  now : TimePoint
  /-- `system_clock::now()` in seconds since the epoch. -/
  wall : Int
  /-- The numbers `std::mt19937` yields. -/
  draws : Nat → Nat
  /-- What successive `RAND_bytes` calls fill in, up to one that fails. -/
  randBytes : List (Vector UInt8 16)
  order : IterOrder

/-! ## Dotted decimal -/

/-- The four bytes of an address. -/
def octets (ip : UInt32) : List UInt8 := bytes32 ip

/-- `a.b.c.d`. -/
def dottedQuad (ip : UInt32) : Bytes :=
  [46].intercalate ((octets ip).map fun octet => toString octet.toNat)

/-- One decimal field: digits only, no leading zero, at most 255. -/
def readOctet (field : Bytes) : Option UInt8 :=
  (List.range 256).find? (fun n => toString n = field) |>.map Nat.toUInt8

/-- `inet_pton(AF_INET, ...)`. -/
def inetPton (s : Bytes) : Option UInt32 :=
  match (s.splitOn 46).map readOctet with
  | [some b0, some b1, some b2, some b3] => some (be32 b0 b1 b2 b3)
  | _ => none

theorem readOctet_toString (octet : UInt8) : readOctet (toString octet.toNat) = some octet := by
  have found : (List.range 256).find? (fun n => toString n = toString octet.toNat) =
      some octet.toNat := by
    rw [List.find?_eq_some_iff_getElem]
    refine ⟨by simp, octet.toNat, by simpa using octet.toNat_lt, by simp, ?_⟩
    intro j below
    have different : toString j ≠ toString octet.toNat :=
      fun same => absurd (toString_injective same) (by omega)
    simpa using different
  simp [readOctet, found]

/-- Dotted decimal text is read back as the address it was written for. -/
theorem inetPton_dottedQuad (ip : UInt32) : inetPton (dottedQuad ip) = some ip := by
  have clean : ∀ field ∈ (octets ip).map (fun octet => toString octet.toNat), 46 ∉ field := by
    intro field member
    obtain ⟨octet, _, rfl⟩ := List.mem_map.mp member
    exact dot_notMem_toString octet.toNat
  have fields : (dottedQuad ip).splitOn 46 =
      (octets ip).map (fun octet => toString octet.toNat) :=
    List.splitOn_intercalate 46 clean (by simp [octets, bytes32])
  rw [inetPton, fields]
  simp only [octets, bytes32, List.map_cons, List.map_nil, readOctet_toString]
  exact congrArg some (be32_bytes32 ip)

/-- A host with dotted-decimal addresses, whose digests are given as tables. -/
def Host.posix (hmacs : List ((Bytes × Bytes) × Vector UInt8 20))
    (digests : List (Bytes × Vector UInt8 16)) (base64 : List (Bytes × Bytes)) : Host where
  hmacSha1 key data := (hmacs.lookup (key, data)).getD (Vector.replicate 20 0)
  hmacSha256 _ _ := Vector.replicate 32 0
  md5 data := (digests.lookup data).getD (Vector.replicate 16 0)
  sha256 _ := Vector.replicate 32 0
  base64Encode data := (base64.lookup data).getD []
  addressToString := dottedQuad
  makeAddressV4 := inetPton

theorem Host.posix_roundTrip : (Host.posix hmacs digests base64).AddressesRoundTrip :=
  inetPton_dottedQuad

end Zaza
