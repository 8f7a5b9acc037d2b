import SuiCash.Reader.Frame

/-!
# One corrupted byte

Both checksums are sums, so a changed byte shows, unless it changes what is summed.  Two
bytes can: those that are the length and its checksum in a short frame, and the marker of
a long one.  In the dialect of the Port-100 a changed marker is all that can pass
(`port100_corrupted`).
-/

namespace SuiCash.Reader

open Bytes

/-- Two strings that sum to the same do not differ in one byte. -/
theorem eq_of_sum_set {s t : List UInt8} {j : ℕ} {x : UInt8} (hj : j < s.length)
    (hset : t = s.set j x) (hsum : t.sum = s.sum) : x = s[j] := by
  rw [hset] at hsum
  exact (Checksum.sum_set_eq_iff hj).mp hsum

theorem sum_checksum (bytes : List UInt8) : (bytes ++ [checksum bytes]).sum = 0 := by
  rw [List.sum_append, List.sum_singleton, checksum_eq, add_neg_cancel]

/-- Behind a length field that stays, a changed byte shows. -/
theorem eq_of_sealed_set {payload payload' rest : List UInt8} {j : ℕ} {x : UInt8}
    (hlen : payload'.length = payload.length) (hj : j < (sealed payload).length)
    (h : sealed payload' ++ rest = (sealed payload).set j x) : x = (sealed payload)[j] := by
  have hrest : rest = [] := by
    have hlength := congrArg List.length h
    rw [List.length_set, List.length_append, length_sealed, length_sealed, hlen] at hlength
    exact List.length_eq_zero_iff.mp (by omega)
  rw [hrest, List.append_nil] at h
  by_cases hlast : j < (payload ++ [checksum payload]).length
  · have hset : sealed payload'
        = (payload ++ [checksum payload]).set j x ++ [POSTAMBLE] := by
      rw [h, sealed, List.set_append, if_pos hlast]
    have hblock := List.append_cancel_right hset
    have hx := eq_of_sum_set hlast hblock ((sum_checksum payload').trans (sum_checksum payload).symm)
    rw [hx]
    exact (List.getElem_append_left hlast).symm
  · have hj' : j = (payload ++ [checksum payload]).length := by
      rw [length_sealed] at hj
      rw [List.length_append, List.length_singleton] at hlast ⊢
      omega
    have hset : sealed payload' = payload ++ [checksum payload] ++ [x] := by
      rw [h, sealed, List.set_append, if_neg hlast, hj', Nat.sub_self]
      rfl
    have hx : POSTAMBLE = x := (List.cons.inj (List.append_inj' hset rfl).2).1
    subst hj'
    rw [← hx]
    exact (List.getElem_concat_length rfl _).symm

variable {encoding : LengthEncoding} {payload payload' raw raw' rest tail tail' : List UInt8}

theorem Behind.eq_of_set {u v : UInt8} (h : Behind encoding payload u v tail)
    (h' : Behind encoding payload' u v tail') {j : ℕ} {x : UInt8} (hj : j < tail.length)
    (hset : tail' ++ rest = tail.set j x) : x = tail[j] := by
  rcases h with ⟨hlen, hv, rfl⟩ | ⟨hE, hu, hv, a, b, hlen, rfl⟩ <;>
    rcases h' with ⟨hlen', hv', rfl⟩ | ⟨-, hu', hv', a', b', hlen', rfl⟩
  · exact eq_of_sealed_set (hlen'.trans hlen.symm) hj hset
  · exact absurd ⟨hu', hv ▸ hv'⟩ (FrameLayout.not_marker u)
  · exact absurd ⟨hu, hv' ▸ hv⟩ (FrameLayout.not_marker u)
  · rw [List.append_assoc _ (sealed payload') rest, List.set_append] at hset
    split at hset
    · -- the length itself, or its checksum
      rename_i hfield
      have hblock := (List.append_inj hset (by rw [List.length_set]; rfl)).1
      rw [eq_of_sum_set hfield hblock ((sum_checksum _).trans (sum_checksum _).symm)]
      exact (List.getElem_append_left hfield).symm
    · rename_i hfield
      obtain ⟨hfields, hbody⟩ := List.append_inj hset rfl
      obtain ⟨rfl, rfl⟩ : a' = a ∧ b' = b := by
        simp only [List.cons_append, List.nil_append, List.cons.injEq] at hfields
        exact ⟨hfields.1, hfields.2.1⟩
      have hfield' := Nat.le_of_not_lt hfield
      rw [List.getElem_append_right hfield']
      exact eq_of_sealed_set (hlen'.trans hlen.symm) _ hbody

/-- **Outside the first two bytes of the length field a changed byte shows.** -/
theorem Envelope.eq_of_set (h : Envelope encoding payload raw)
    (h' : Envelope encoding payload' raw') {i : ℕ} {x : UInt8} (hi : i < raw.length)
    (hplace : i < 3 ∨ 5 ≤ i) (hset : raw' ++ rest = raw.set i x) : x = raw[i] := by
  obtain ⟨u, v, tail, hbehind, rfl⟩ := envelope_iff.mp h
  obtain ⟨u', v', tail', hbehind', rfl⟩ := envelope_iff.mp h'
  rcases hplace with hpre | hpost
  · have hsof : i < SOF.length := hpre
    rw [List.append_assoc, List.append_assoc, List.append_assoc, List.set_append,
      if_pos hsof] at hset
    have hpreamble := (List.append_inj hset (by rw [List.length_set])).1
    have hx : SOF[i] = x := by
      have hat := List.getElem_set_self (l := SOF) (a := x) (by rwa [List.length_set])
      rw [← hat]
      exact List.getElem_of_eq hpreamble _
    rw [← hx, List.getElem_append_left (by simp [SOF]; omega), List.getElem_append_left hsof]
  · have hhead : ¬ i < (SOF ++ [u, v]).length := Nat.not_lt.mpr hpost
    rw [List.append_assoc (SOF ++ [u', v']), List.set_append, if_neg hhead] at hset
    obtain ⟨hheads, htails⟩ := List.append_inj hset rfl
    obtain ⟨rfl, rfl⟩ : u' = u ∧ v' = v := by
      simp only [SOF, List.cons_append, List.nil_append, List.cons.injEq] at hheads
      exact ⟨hheads.2.2.2.1, hheads.2.2.2.2.1⟩
    rw [List.getElem_append_right (Nat.le_of_not_lt hhead)]
    exact hbehind.eq_of_set hbehind' _ htails

/-! ### The Port-100 -/

theorem exists_sealed_iff {s : List UInt8} {n : ℕ} :
    (∃ payload rest, payload.length = n ∧ s = sealed payload ++ rest)
      ↔ (s.take (n + 1)).sum = 0 ∧ s[n + 1]? = some POSTAMBLE := by
  constructor
  · rintro ⟨payload, rest, rfl, rfl⟩
    have hlen : (payload ++ [checksum payload]).length = payload.length + 1 := by simp
    rw [sealed, List.append_assoc, ← hlen, List.take_left' rfl, sum_checksum,
      List.getElem?_append_right (le_refl _), Nat.sub_self]
    exact ⟨rfl, rfl⟩
  · rintro ⟨hsum, hpost⟩
    obtain ⟨hlen, hlast⟩ := List.getElem?_eq_some_iff.mp hpost
    have hn : n < s.length := Nat.lt_of_succ_lt hlen
    have hfirst : s.take (n + 1) = s.take n ++ [s[n]] := (List.take_concat_get' s n hn).symm
    have hdcs : s[n] = checksum (s.take n) := by
      rw [hfirst, List.sum_append, List.sum_singleton] at hsum
      rw [checksum_eq]
      exact Checksum.sum_add_eq_zero_iff.mp hsum
    refine ⟨s.take n, s.drop (n + 2), List.length_take_of_le (Nat.le_of_lt hn), ?_⟩
    rw [sealed, ← hdcs, ← hfirst, ← hlast, List.take_concat_get' s (n + 1) hlen,
      List.take_append_drop]

theorem raw_of_build {f : Frame Port100Format} (h : Frame.build payload = some f) :
    ∃ a b, toLeBytes (UInt16.ofNat payload.length) = [a, b]
      ∧ f.raw = (SOF ++ [0xFF, 0xFF]) ++ ([a, b, checksum [a, b]] ++ sealed payload) := by
  obtain ⟨a, b, hab⟩ := List.length_eq_two.mp (length_toLeBytes (UInt16.ofNat payload.length))
  cases h
  refine ⟨a, b, hab, ?_⟩
  rw [hab]
  simp [sealed, pushExtendedLength, EXTENDED_LENGTH_MARKER]

theorem port100_accepts_iff {data : List UInt8} (hlen : data.length ≠ 6) :
    (∃ g : Frame Port100Format, Frame.parse data = some g)
      ↔ ∃ payload raw rest, Envelope .ExtendedLittleEndian payload raw ∧ data = raw ++ rest := by
  constructor
  · rintro ⟨g, hg⟩
    rcases Frame.parse_eq_some_iff.mp hg with ⟨rfl, -⟩ | ⟨-, rfl, -⟩ | ⟨⟨hF, -⟩, -⟩ |
      ⟨payload, rest, henv, -, hdata, -⟩
    · exact absurd rfl hlen
    · exact absurd rfl hlen
    · cases hF
    · exact ⟨payload, g.raw, rest, henv, hdata⟩
  · rintro ⟨payload, raw, rest, henv, rfl⟩
    refine ⟨⟨raw, .Data payload⟩, Frame.parse_eq_some_iff.mpr
      (.inr (.inr (.inr ⟨payload, rest, henv, rfl, rfl, ?_⟩)))⟩
    rintro ⟨hF, -⟩
    cases hF

theorem marker_changed_iff {u v : UInt8} (huv : ¬ (u = 0xFF ∧ v = 0xFF)) :
    (∃ payload raw rest, Envelope .ExtendedLittleEndian payload raw
        ∧ (SOF ++ [u, v]) ++ tail = raw ++ rest)
      ↔ v = lengthChecksum u ∧ (tail.take (u.toNat + 1)).sum = 0
        ∧ tail[u.toNat + 1]? = some POSTAMBLE := by
  rw [← exists_sealed_iff]
  constructor
  · rintro ⟨payload, raw, rest, henv, h⟩
    obtain ⟨u', v', tail', hbehind, rfl⟩ := envelope_iff.mp henv
    rw [List.append_assoc (SOF ++ [u', v'])] at h
    obtain ⟨hheads, rfl⟩ := List.append_inj h rfl
    obtain ⟨rfl, rfl⟩ : u = u' ∧ v = v' := by
      simp only [SOF, List.cons_append, List.nil_append, List.cons.injEq] at hheads
      exact ⟨hheads.2.2.2.1, hheads.2.2.2.2.1⟩
    rcases hbehind with ⟨hlen, hv, rfl⟩ | ⟨-, hu, hv, -⟩
    · exact ⟨hv, payload, rest, hlen, rfl⟩
    · exact absurd ⟨hu, hv⟩ huv
  · rintro ⟨hv, payload, rest, hlen, rfl⟩
    exact ⟨payload, _, rest, envelope_iff.mpr ⟨u, v, sealed payload, .inl ⟨hlen, hv, rfl⟩, rfl⟩,
      (List.append_assoc _ _ _).symm⟩

theorem checksum_pair_eq_zero_iff {a b : UInt8} : checksum [a, b] = 0 ↔ a + b = 0 := by
  rw [checksum_eq, neg_eq_zero, List.sum_cons, List.sum_singleton]

theorem lengthChecksum_eq_marker_iff (u : UInt8) : 0xFF = lengthChecksum u ↔ u = 1 := by
  rw [lengthChecksum, checksum_eq, List.sum_singleton, eq_neg_iff_add_eq_zero,
    show (0xFF : UInt8) = -1 from rfl, neg_add_eq_zero, eq_comm]

/-- The places of the marker are all that can change, and what has to come behind them. -/
theorem port100_changed_iff {f : Frame Port100Format} (hbuild : Frame.build payload = some f)
    (hlen : payload.length < 65536) {i : ℕ} {x : UInt8} (hi : i < f.raw.length)
    (hx : x ≠ f.raw[i]) :
    (∃ g : Frame Port100Format, Frame.parse (f.raw.set i x) = some g)
      ↔ x = 1 ∧ (i = 3 ∧ f.raw[7]? = some 0
        ∨ i = 4 ∧ ((sealed payload).take 253).sum = 0 ∧ (sealed payload)[253]? = some 0) := by
  obtain ⟨a, b, hab, hraw⟩ := raw_of_build hbuild
  have henv : Envelope .ExtendedLittleEndian payload f.raw :=
    (Frame.envelope_of_build hbuild hlen).1
  have hsix : (f.raw.set i x).length ≠ 6 := by
    have := henv.length_le
    rw [List.length_set]
    omega
  have hlcs : f.raw[7]? = some (checksum [a, b]) := by
    rw [hraw]
    rfl
  rw [port100_accepts_iff hsix]
  by_cases hplace : i < 3 ∨ 5 ≤ i
  · refine iff_of_false ?_ ?_
    · rintro ⟨payload', raw', rest, henv', hset⟩
      exact hx (henv.eq_of_set henv' hi hplace hset.symm)
    · rintro ⟨-, ⟨rfl, -⟩ | ⟨rfl, -⟩⟩ <;> omega
  obtain rfl | rfl : i = 3 ∨ i = 4 := by omega
  · have hbyte : f.raw[3] = 0xFF := by simp [hraw, SOF]
    have hset : f.raw.set 3 x
        = (SOF ++ [x, 0xFF]) ++ ([a, b, checksum [a, b]] ++ sealed payload) := by
      rw [hraw]
      rfl
    rw [hset, marker_changed_iff (fun h => hx (h.1.trans hbyte.symm)),
      lengthChecksum_eq_marker_iff]
    refine ⟨?_, ?_⟩
    · rintro ⟨rfl, -, hpost⟩
      exact ⟨rfl, .inl ⟨rfl, hlcs.trans hpost⟩⟩
    · rintro ⟨rfl, ⟨-, hzero⟩ | ⟨h, -⟩⟩
      · have hc : checksum [a, b] = 0 := Option.some.inj (hlcs.symm.trans hzero)
        refine ⟨rfl, ?_, congrArg some hc⟩
        show List.sum [a, b] = 0
        rw [List.sum_cons, List.sum_singleton]
        exact checksum_pair_eq_zero_iff.mp hc
      · cases h
  · have hbyte : f.raw[4] = 0xFF := by simp [hraw, SOF]
    have hset : f.raw.set 4 x
        = (SOF ++ [0xFF, x]) ++ ([a, b, checksum [a, b]] ++ sealed payload) := by
      rw [hraw]
      rfl
    have htake : (([a, b, checksum [a, b]] ++ sealed payload).take (255 + 1)).sum
        = ((sealed payload).take 253).sum := by
      have hzero := sum_checksum [a, b]
      show (([a, b] ++ [checksum [a, b]]) ++ (sealed payload).take 253).sum = _
      rw [List.sum_append, hzero, zero_add]
    rw [hset, marker_changed_iff (fun h => hx (h.2.trans hbyte.symm)),
      show lengthChecksum 0xFF = 1 by decide, show (0xFF : UInt8).toNat = 255 from rfl, htake]
    refine and_congr_right fun _ => ⟨fun h => .inr ⟨rfl, h⟩, ?_⟩
    rintro (⟨h, -⟩ | ⟨-, h⟩)
    · cases h
    · exact h

/-- **One corrupted byte in a frame of the Port-100** shows, unless it is the marker that
changes: its first byte, to a length of one, where the length's own checksum is zero, or
its second, to the checksum of a length of 255, where the payload reaches as far and fits.
Neither can happen to a payload of 1 to 251 bytes.  The sums wrap, as in a release build. -/
theorem port100_corrupted {f : Frame Port100Format} (hbuild : Frame.build payload = some f)
    (hlen : payload.length < 65536) {i : ℕ} {x : UInt8} (hi : i < f.raw.length)
    (hx : x ≠ f.raw[i]) :
    ((∃ g : Frame Port100Format, Frame.parse (f.raw.set i x) = some g)
      ↔ x = 1 ∧ (i = 3 ∧ f.raw[7]? = some 0
        ∨ i = 4 ∧ ((sealed payload).take 253).sum = 0 ∧ (sealed payload)[253]? = some 0))
    ∧ (0 < payload.length → payload.length < 252 →
      (Frame.parse (f.raw.set i x) : Option (Frame Port100Format)) = none) := by
  have hiff := port100_changed_iff hbuild hlen hi hx
  refine ⟨hiff, fun hpos hshort => ?_⟩
  cases hparse : (Frame.parse (f.raw.set i x) : Option (Frame Port100Format)) with
  | none => rfl
  | some g =>
    exfalso
    rcases hiff.mp ⟨g, hparse⟩ with ⟨-, ⟨-, hzero⟩ | ⟨-, -, hpost⟩⟩
    · -- the length bytes would have to sum to zero
      obtain ⟨a, b, hab, hraw⟩ := raw_of_build hbuild
      rw [hraw] at hzero
      have hc : checksum [a, b] = 0 := Option.some.inj hzero
      have hsum := congrArg UInt8.toNat (checksum_pair_eq_zero_iff.mp hc)
      have hword : leNat [a, b] = payload.length := by
        rw [← hab, toLeBytes, UInt16.toNat_ofNat', Nat.mod_eq_of_lt hlen,
          leNat_leBytes (by omega)]
      rw [leNat_cons, leNat_cons, leNat_nil] at hword
      rw [UInt8.toNat_add, UInt8.toNat_zero] at hsum
      have ha := a.toNat_lt
      have hb : b.toNat = 0 := by omega
      omega
    · have hlt := (List.getElem?_eq_some_iff.mp hpost).1
      rw [length_sealed] at hlt
      omega

theorem port100_corrupted_command :
    (Frame.parse [0, 0, 0xFF, 0xFF, 0xFF, 2, 0, 0xFE, 0xD6, 0x21, 0x0A, 0] :
      Option (Frame Port100Format)) = none :=
  have hbuild : Frame.build [0xD6, 0x20] = some (⟨[0, 0, 0xFF, 0xFF, 0xFF, 2, 0, 0xFE, 0xD6, 0x20,
      0x0A, 0], .Data [0xD6, 0x20]⟩ : Frame Port100Format) := rfl
  (port100_corrupted hbuild (by decide) (i := 9) (x := 0x21) (by decide) (by decide)).2
    (by decide) (by decide)

end SuiCash.Reader
