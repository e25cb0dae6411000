import SecondGear.Model.InetAddress

/-!
# `SecondGear.Proofs.InetAddress`: an endpoint is what its text says

* `hostPort_round_trip`: an endpoint that was made from a text and a port prints them, and
  what an endpoint prints makes it again, so different endpoints print different texts. The
  buffers are never too short.
-/

set_option autoImplicit false

namespace SecondGear

open SecondGear.Lib

namespace Sockets

variable {order : ByteOrder}

/-! ### Byte order -/

/-- The conversion in undoes the conversion out. -/
theorem networkToHost16_hostToNetwork16 (port : UInt16) :
    networkToHost16 order (hostToNetwork16 order port) = port := by
  have hlt : port.toNat < 256 ^ 2 := port.toNat_lt
  refine UInt16.toNat_inj.mp ?_
  rw [networkToHost16, hostToNetwork16, UInt16.toNat_ofNat_of_lt' (ByteOrder.hton_lt hlt),
    ByteOrder.hton_hton hlt, UInt16.toNat_ofNat_of_lt' hlt]

theorem hostToNetwork16_networkToHost16 (port : UInt16) :
    hostToNetwork16 order (networkToHost16 order port) = port :=
  networkToHost16_hostToNetwork16 port

/-! ### `inet_ntop` and `inet_pton` -/

theorem octet?_eq_some_iff {cs : List Char} {b : UInt8} :
    octet? cs = some b ↔ cs = decimal b.toNat := by
  constructor
  · intro h
    obtain ⟨n, hn, h⟩ := bind_eq_some_iff.mp h
    obtain ⟨hzero, h⟩ := assert_bind_eq_some_iff.mp h
    obtain ⟨hle, h⟩ := assert_bind_eq_some_iff.mp h
    cases h
    rw [UInt8.toNat_ofNat_of_lt' (show n < 256 by omega)]
    exact (decimal_of_number? hn hzero).symm
  · rintro rfl
    have hlt := b.toNat_lt
    have hzero : (decimal b.toNat).head? = some '0' → (decimal b.toNat).length = 1 :=
      length_decimal_of_head
    rw [octet?, number?_decimal]
    show (assert _ >>= fun _ => assert _ >>= fun _ => some _) = _
    rw [assert_bind_pos hzero, assert_bind_pos (by omega), UInt8.ofNat_toNat]

/-- The fields of an address. -/
theorem mapM_octet?_eq_some_iff {fields : List (List Char)} {bytes : List UInt8} :
    fields.mapM octet? = some bytes ↔ fields = bytes.map fun b => decimal b.toNat := by
  induction fields generalizing bytes with
  | nil => cases bytes <;> simp
  | cons field fields ih =>
      rw [List.mapM_cons]
      constructor
      · intro h
        obtain ⟨b, hb, h⟩ := bind_eq_some_iff.mp h
        obtain ⟨bs, hbs, h⟩ := bind_eq_some_iff.mp h
        cases h
        rw [octet?_eq_some_iff.mp hb, ih.mp hbs]
        rfl
      · cases bytes with
        | nil => exact fun h => absurd h (List.cons_ne_nil _ _)
        | cons b bs =>
            intro h
            obtain ⟨hb, hbs⟩ := List.cons.inj h
            rw [octet?_eq_some_iff.mpr hb, ih.mpr hbs]
            rfl

/-- `inet_pton` accepts what `inet_ntop` writes, and nothing else. -/
theorem inetPton_eq_some_iff {ip : List Char} {a : UInt32} :
    inetPton order ip = some a ↔ ip = dotted (order.store 4 a.toNat) := by
  have ha : a.toNat < 256 ^ 4 := a.toNat_lt
  constructor
  · intro h
    obtain ⟨bytes, hbytes, h⟩ := bind_eq_some_iff.mp h
    obtain ⟨hlen, h⟩ := assert_bind_eq_some_iff.mp h
    cases h
    have hlt : order.load bytes < 256 ^ 4 := hlen ▸ ByteOrder.load_lt bytes
    rw [UInt32.toNat_ofNat_of_lt' hlt, ByteOrder.store_load hlen, dotted,
      ← mapM_octet?_eq_some_iff.mp hbytes, List.intercalate_splitOn]
  · rintro rfl
    have hfields : (dotted (order.store 4 a.toNat)).splitOn '.'
        = (order.store 4 a.toNat).map fun b => decimal b.toNat := by
      refine List.splitOn_intercalate '.' ?_ ?_
      · intro field hfield
        obtain ⟨b, -, rfl⟩ := List.mem_map.mp hfield
        exact not_mem_decimal (by decide) _
      · rw [ne_eq, List.map_eq_nil_iff, ← List.length_eq_zero_iff, ByteOrder.length_store]
        decide
    rw [inetPton, hfields, mapM_octet?_eq_some_iff.mpr rfl]
    show (assert _ >>= fun _ => some _) = _
    rw [assert_bind_pos (ByteOrder.length_store order 4 _), ByteOrder.load_store ha,
      UInt32.ofNat_toNat]

/-- Three digits and a dot for each byte, without the last dot. -/
theorem length_dotted_lt {bytes : List UInt8} (h : bytes ≠ []) :
    (dotted bytes).length < 4 * bytes.length := by
  have hfield : ∀ b : UInt8, (decimal b.toNat).length ≤ 3 := by
    intro b
    have hlt := b.toNat_lt
    exact length_decimal_le (by decide) (by omega)
  induction bytes with
  | nil => exact absurd rfl h
  | cons b bs ih =>
      have hb := hfield b
      cases bs with
      | nil =>
          rw [dotted, List.map_singleton, List.intercalate_singleton, List.length_singleton]
          omega
      | cons c cs =>
          have hrest := ih (List.cons_ne_nil c cs)
          rw [dotted, List.map_cons] at hrest
          rw [dotted, List.map_cons, List.map_cons, List.intercalate_cons_cons, List.length_append,
            List.length_append]
          simp only [List.length_cons, List.length_nil] at hrest ⊢
          omega

theorem length_dotted_store (a : UInt32) : (dotted (order.store 4 a.toNat)).length < 16 := by
  have hlen : (order.store 4 a.toNat).length = 4 := ByteOrder.length_store order 4 _
  have hlt : (dotted (order.store 4 a.toNat)).length < 4 * (order.store 4 a.toNat).length :=
    length_dotted_lt (List.ne_nil_of_length_pos (by rw [hlen]; decide))
  rwa [hlen] at hlt

/-- Both buffers are long enough. -/
theorem toHostPort_eq (addr : SockaddrIn) :
    toHostPort order 32 addr = dotted (order.store 4 addr.sAddr.toNat)
      ++ [':'] ++ decimal (networkToHost16 order addr.sinPort).toNat := by
  have hhost : (dotted (order.store 4 addr.sAddr.toNat)).length < 16 :=
    length_dotted_store addr.sAddr
  have hport : (decimal (networkToHost16 order addr.sinPort).toNat).length ≤ 5 := by
    have hlt := (networkToHost16 order addr.sinPort).toNat_lt
    exact length_decimal_le (by decide) (by omega)
  have hntop : inetNtop order addr.sAddr INET_ADDRSTRLEN
      = some (dotted (order.store 4 addr.sAddr.toNat)) := if_pos hhost
  rw [toHostPort, hntop]
  refine snprintf_eq ?_
  rw [Option.getD_some, List.length_append, List.length_append, List.length_singleton]
  omega

/-- A host is made of digits and dots. -/
theorem mem_dotted {bytes : List UInt8} {c : Char} (h : c ∈ dotted bytes) :
    c.isDigit ∨ c = '.' := by
  induction bytes with
  | nil => exact absurd h List.not_mem_nil
  | cons b bs ih =>
      cases bs with
      | nil =>
          rw [dotted, List.map_singleton, List.intercalate_singleton] at h
          exact Or.inl (isDigit_of_mem_decimal h)
      | cons b' bs =>
          rw [dotted, List.map_cons] at ih
          rw [dotted, List.map_cons, List.map_cons, List.intercalate_cons_cons, List.append_assoc,
            List.mem_append, List.mem_append, List.mem_singleton] at h
          rcases h with hdigit | hdot | hrest
          · exact Or.inl (isDigit_of_mem_decimal hdigit)
          · exact Or.inr hdot
          · exact ih hrest

theorem not_mem_dotted (bytes : List UInt8) {c : Char} (hdigit : c.isDigit = false)
    (hdot : c ≠ '.') : c ∉ dotted bytes := by
  intro h
  rcases mem_dotted h with hd | rfl
  · rw [hdigit] at hd
    cases hd
  · exact hdot rfl

end Sockets

open Sockets

/-- A text without a zero is its C string. -/
theorem cStr_ofList {text : List Char} (h : Char.ofNat 0 ∉ text) :
    cStr (String.ofList text) = text := by
  rw [cStr, String.toList_ofList]
  induction text with
  | nil => rfl
  | cons c text ih =>
      have hc : c ≠ Char.ofNat 0 := fun hc => h (hc ▸ List.mem_cons_self)
      rw [List.takeWhile_cons_of_pos (by simpa using hc),
        ih fun hmem => h (List.mem_cons_of_mem _ hmem)]

namespace InetAddress

variable {order : ByteOrder}

/-- The text of an endpoint. -/
theorem toHostPort_eq (a : InetAddress) :
    a.toHostPort order = String.ofList (dotted (order.store 4 a.addr.sAddr.toNat)) ++ ":"
      ++ String.ofList (decimal (networkToHost16 order a.addr.sinPort).toNat) := by
  rw [toHostPort, Sockets.toHostPort_eq, String.ofList_append, String.ofList_append]

/-- What `InetAddress(ip, port)` makes. -/
theorem ofIp_eq_some_iff {ip : String} {port : UInt16} {a : InetAddress} :
    ofIp order ip port = some a ↔ a.addr.sinFamily = AF_INET ∧
      a.addr.sinPort = hostToNetwork16 order port ∧
      cStr ip = dotted (order.store 4 a.addr.sAddr.toNat) := by
  rw [ofIp, Option.map_eq_some_iff]
  constructor
  · rintro ⟨addr, h, rfl⟩
    obtain ⟨sAddr, hpton, h⟩ := bind_eq_some_iff.mp h
    cases h
    exact ⟨rfl, rfl, inetPton_eq_some_iff.mp hpton⟩
  · rintro ⟨hfamily, hport, hip⟩
    refine ⟨a.addr, ?_, rfl⟩
    rw [fromHostPort, inetPton_eq_some_iff.mpr hip, ← hfamily, ← hport]
    rfl

/-! ### Main results -/

/-- Text and endpoint determine each other. An endpoint that was made from a text and a port
prints them. What an endpoint prints is a text and a port that make it again, so different
endpoints print different texts. -/
theorem hostPort_round_trip (order : ByteOrder) :
    (∀ ip port a, ofIp order ip port = some a →
        a.toHostPort order = String.ofList (cStr ip) ++ ":" ++ toString port.toNat) ∧
      (∀ a, a.addr.sinFamily = AF_INET → ∃ ip port,
        a.toHostPort order = ip ++ ":" ++ toString port.toNat ∧
          ofIp order ip port = some a) ∧
      ∀ a b : InetAddress, a.addr.sinFamily = AF_INET → b.addr.sinFamily = AF_INET →
        a.toHostPort order = b.toHostPort order → a = b := by
  have hprints : ∀ ip port a, ofIp order ip port = some a →
      a.toHostPort order = String.ofList (cStr ip) ++ ":" ++ toString port.toNat := by
    intro ip port a h
    obtain ⟨-, hport, hip⟩ := ofIp_eq_some_iff.mp h
    rw [toHostPort_eq, hip, hport, networkToHost16_hostToNetwork16]
    rfl
  have hmakes : ∀ a : InetAddress, a.addr.sinFamily = AF_INET →
      ofIp order (String.ofList (dotted (order.store 4 a.addr.sAddr.toNat)))
        (networkToHost16 order a.addr.sinPort) = some a := by
    intro a hfamily
    refine ofIp_eq_some_iff.mpr ⟨hfamily, ?_, ?_⟩
    · rw [hostToNetwork16_networkToHost16]
    · exact cStr_ofList (not_mem_dotted _ (by decide) (by decide))
  refine ⟨hprints, fun a hfamily => ⟨_, _, toHostPort_eq a, hmakes a hfamily⟩, ?_⟩
  intro a b ha hb heq
  -- The colon ends the host.
  have hsplit := congrArg (fun s => s.toList.splitOn ':') heq
  simp only [toHostPort_eq, String.toList_append, String.toList_ofList] at hsplit
  rw [show ":".toList = [':'] from rfl, List.append_assoc, List.append_assoc,
    List.singleton_append, List.singleton_append,
    List.splitOn_append_cons_self_of_not_mem (not_mem_dotted _ (by decide) (by decide)),
    List.splitOn_append_cons_self_of_not_mem (not_mem_dotted _ (by decide) (by decide)),
    List.splitOn_eq_singleton (not_mem_decimal (by decide) _),
    List.splitOn_eq_singleton (not_mem_decimal (by decide) _)] at hsplit
  obtain ⟨hhost, hrest⟩ := List.cons.inj hsplit
  have hport : networkToHost16 order a.addr.sinPort = networkToHost16 order b.addr.sinPort :=
    UInt16.toNat_inj.mp (decimal_injective (List.cons.inj hrest).1)
  have hmade := hmakes a ha
  rw [hhost, hport, hmakes b hb, Option.some.injEq] at hmade
  exact hmade.symm

/-- The loopback address, on a machine that stores the low byte first. -/
theorem hostPort_round_trip_loopback :
    ∃ a, ofIp .little "127.0.0.1" 9981 = some a ∧ a.toHostPort .little = "127.0.0.1:9981" ∧
      a.addr.sAddr = 0x0100007f := by
  have hofIp : ofIp .little "127.0.0.1" 9981 = some ⟨⟨AF_INET, 64806, 0x0100007f⟩⟩ := by
    decide +kernel
  refine ⟨_, hofIp, ?_, rfl⟩
  exact ((hostPort_round_trip .little).1 _ _ _ hofIp).trans (by decide +kernel)

end InetAddress

end SecondGear
