import SuiCash.Prover.Sbox
import SuiCash.Des.Chain

/-!
# The DES gadgets

The rest of the gadgets of `prover/src/circuit.rs`: allocation of byte strings
as bits, the two bit orders, the round keys, DES and EDE.

Bits are allocated low bit first within each byte; DES counts from the top.
`leToDes` and `desToLe` go between the two and are wiring only, as are the
permutations and the key schedule.  `desGadget_reads` is the theorem about all
of it: if the input variables carry `data` in DES order and `key` in allocation
order, the output variables carry `desBlock data key` in DES order, whatever the
hints, and the gadget is satisfied by its own values when the hints are the
inputs.
-/

namespace SuiCash.Prover

open R1cs R1cs.Synth Bytes Des Wiring

/-! ### The two bit orders -/

/-- Place `8 (k / 8) + 7 - k % 8`. -/
def desOrder (n : ℕ) : Vector (Fin (n * 8)) (n * 8) :=
  Vector.ofFn fun k => ⟨k.val / 8 * 8 + (7 - k.val % 8), by omega⟩

/-- LE bits to DES-ordered bits, `n` bytes of them.  Wiring only. -/
def leToDes {α : Type} (n : ℕ) (le : Vector α (n * 8)) : Vector α (n * 8) :=
  gather le (desOrder n)

/-- DES-ordered bits to LE bits, written over `init`. -/
def desToLe {α : Type} (n : ℕ) (init : α) (des : Vector α (n * 8)) : Vector α (n * 8) :=
  scatter (Vector.replicate (n * 8) init) (desOrder n) des

theorem getElem_leToDes {α : Type} {n : ℕ} (le : Vector α (n * 8)) {k : ℕ} (h : k < n * 8) :
    (leToDes n le)[k] = le[k / 8 * 8 + (7 - k % 8)] := by
  simp [leToDes, desOrder]

theorem getElem_desToLe {α : Type} {n : ℕ} (init : α) (des : Vector α (n * 8)) {k : ℕ}
    (h : k < n * 8) : (desToLe n init des)[k / 8 * 8 + (7 - k % 8)] = des[k] := by
  have hinj : ∀ (i j : ℕ) (hi : i < n * 8) (hj : j < n * 8),
      (desOrder n)[i] = (desOrder n)[j] → i = j := by
    intro i j hi hj he
    have := congrArg Fin.val he
    simp only [desOrder, Vector.getElem_ofFn] at this
    omega
  have := getElem_scatter (Vector.replicate (n * 8) init) (desOrder n) des hinj h
  simpa [desToLe, desOrder] using this

theorem leToDes_leBits (b : Block) : leToDes 8 (leBits b) = bytesToDesBits b := by
  ext k hk
  rw [getElem_leToDes, getElem_leBits, getElem_bytesToDesBits]
  have hd : (k / 8 * 8 + (7 - k % 8)) / 8 = k / 8 := by omega
  have hr : (k / 8 * 8 + (7 - k % 8)) % 8 = 7 - k % 8 := by omega
  simp only [hd, hr]

theorem desToLe_leToDes {α : Type} {n : ℕ} (init : α) (le : Vector α (n * 8)) :
    desToLe n init (leToDes n le) = le := by
  ext k hk
  have hplace : (k / 8 * 8 + (7 - k % 8)) / 8 * 8 + (7 - (k / 8 * 8 + (7 - k % 8)) % 8) = k := by
    omega
  have := getElem_desToLe init (leToDes n le) (k := k / 8 * 8 + (7 - k % 8)) (by omega)
  rw [getElem_leToDes] at this
  simpa only [hplace] using this

theorem desToLe_bytesToDesBits (b : Block) : desToLe 8 false (bytesToDesBits b) = leBits b := by
  rw [← leToDes_leBits]
  exact desToLe_leToDes false (leBits b)

/-! ### Wiring on related entries -/

section Related

variable {α β : Type} {R : α → β → Prop}

theorem along_leToDes {n : ℕ} {v : Vector α (n * 8)} {x : Vector β (n * 8)} (h : Along R v x) :
    Along R (leToDes n v) (leToDes n x) := h.gather _

theorem along_desToLe {n : ℕ} {v : Vector α (n * 8)} {x : Vector β (n * 8)} {a : α} {b : β}
    (h0 : R a b) (h : Along R v x) : Along R (desToLe n a v) (desToLe n b x) :=
  Along.scatter (fun i hi => by simpa using h0) h _

theorem along_halves {m : ℕ} {v : Vector α (m + m)} {x : Vector β (m + m)} (h : Along R v x) :
    Along R (halves v).1 (halves x).1 ∧ Along R (halves v).2 (halves x).2 := by
  refine ⟨fun i hi => ?_, fun i hi => ?_⟩ <;> simpa [halves] using h _ _

theorem along_scheduleFrom (shifts : List ℕ) {c d : Vector α 28} {c' d' : Vector β 28}
    (hc : Along R c c') (hd : Along R d d') :
    List.Forall₂ (Along R) (scheduleFrom shifts c d) (scheduleFrom shifts c' d') := by
  induction shifts generalizing c d c' d' with
  | nil => exact .nil
  | cons s shifts ih =>
    have hc := hc.rotateLeft s
    have hd := hd.rotateLeft s
    exact .cons ((hc.append hd).gather PC2) (ih hc hd)

theorem forall₂_zip {α β γ : Type} {R : α → γ → Prop} {S : β → γ → Prop} {as : List α}
    {bs : List β} {cs : List γ} (h : List.Forall₂ R as cs) (h' : List.Forall₂ S bs cs) :
    List.Forall₂ (fun p c => R p.1 c ∧ S p.2 c) (as.zip bs) cs := by
  induction h generalizing bs with
  | nil => cases h'; exact .nil
  | cons hr _ ih =>
    cases h' with
    | cons hs hss => exact .cons ⟨hr, hs⟩ (ih hss)

theorem forall₂_of_eq {p : Prop} {as bs : List α} (hlen : as.length = bs.length)
    (h : p → as = bs) : List.Forall₂ (fun a b => p → a = b) as bs := by
  refine List.forall₂_iff_get.mpr ⟨hlen, fun i h1 h2 hp => ?_⟩
  rw [List.get_of_eq (h hp)]

end Related

/-! ### The gadgets -/

section Gadgets

variable (std : R1csStd)

/-- Allocate LE bits, bit `j` of byte `i` at place `8 i + j`, as witnesses. -/
def allocLeBits {n : ℕ} (bytes : Vector UInt8 n) : Synthesis (Vector std.Boolean (n * 8)) :=
  ofFnM fun k : Fin (n * 8) => std.newWitness (bit (bytes[k.val / 8]) (k.val % 8))

def xorVars {n : ℕ} (a b : Vector std.Boolean n) : Synthesis (Vector std.Boolean n) :=
  ofFnM fun i : Fin n => std.xor (a.get i) (b.get i)

def enforceVars {n : ℕ} (a b : Vector std.Boolean n) : Synthesis Unit :=
  forEach (fun i => std.enforceEqual (a.get i) (b.get i)) (List.finRange n)

def permuteVars {n m : ℕ} (vars : Vector std.Boolean n) (table : Vector (Fin n) m) :
    Vector std.Boolean m := gather vars table

/-- Round keys as wirings over the key's LE bits. -/
def roundKeyVars (keyLe : Vector std.Boolean 64) : List (Vector std.Boolean 48) :=
  let keyDes := leToDes 8 keyLe
  let pc1 : Vector std.Boolean (28 + 28) := permuteVars std keyDes PC1
  scheduleFrom SHIFTS (halves pc1).1 (halves pc1).2

/-- The halves of one round, as variables and as the native values that hints
are taken from. -/
structure RoundState where
  l : Vector std.Boolean 32
  r : Vector std.Boolean 32
  lNative : Vector Bool 32
  rNative : Vector Bool 32

def desRound (s : RoundState std) (k : Vector std.Boolean 48 × Vector Bool 48) :
    Synthesis (RoundState std) := do
  let expanded := permuteVars std s.r E
  let expandedNat := permute s.rNative E
  let xored : Vector std.Boolean (8 * 6) ← xorVars std expanded k.1
  let xoredNat : Vector Bool (8 * 6) := xorBits expandedNat k.2
  let sOut ← ofFnM fun b : Fin 8 => sboxGadget std b (chunk xored b) (chunk xoredNat b)
  let sOutNat : Vector Bool (8 * 4) :=
    (Vector.ofFn fun b : Fin 8 => sboxBits (sboxLookup b (chunk xoredNat b))).flatten
  let f := permuteVars std (sOut.flatten : Vector std.Boolean (8 * 4)) P
  let fNat := permute sOutNat P
  let newR ← xorVars std s.l f
  let newRNat := xorBits s.lNative fNat
  pure ⟨s.r, newR, s.rNative, newRNat⟩

/-- Single DES block gadget.  `dataDes` is in DES order, `keyLe` in LE order;
`witnessData` and `witnessKey` are native bytes for hints. -/
def desGadget (dataDes keyLe : Vector std.Boolean 64) (encrypt : Bool)
    (witnessData witnessKey : Block) : Synthesis (Vector std.Boolean 64) := do
  let rkeys := roundKeyVars std keyLe
  let rkeys := if encrypt then rkeys else rkeys.reverse
  let ip : Vector std.Boolean (32 + 32) := permuteVars std dataDes IP
  let ipn : Vector Bool (32 + 32) := permute (bytesToDesBits witnessData) IP
  let pc1 : Vector Bool (28 + 28) := permute (bytesToDesBits witnessKey) PC1
  let nativeRkeys := scheduleFrom SHIFTS (halves pc1).1 (halves pc1).2
  let nativeRkeys := if encrypt then nativeRkeys else nativeRkeys.reverse
  let s ← foldlM (desRound std) ⟨(halves ip).1, (halves ip).2, (halves ipn).1, (halves ipn).2⟩
    (rkeys.zip nativeRkeys)
  pure (permuteVars std (s.r ++ s.l : Vector std.Boolean 64) fpTable)

/-- 3DES-EDE encrypt gadget: E(k1), D(k2), E(k1). -/
def tdesEncryptGadget (dataDes k1Le k2Le : Vector std.Boolean 64) (wData wK1 wK2 : Block) :
    Synthesis (Vector std.Boolean 64) := do
  let t1 := desEncrypt wData wK1
  let t2 := desDecrypt t1 wK2
  let e1 ← desGadget std dataDes k1Le true wData wK1
  let d2 ← desGadget std e1 k2Le false t1 wK2
  desGadget std d2 k1Le true t2 wK1

end Gadgets

/-! ### What the gadgets compute -/

section Reads

variable {std : R1csStd} {mode : Mode} {w : Assignment Fr}

theorem roundKeyVars_reads {keyLe : Vector std.Boolean 64} {key : Block}
    (hkey : Along (std.Reads mode w) keyLe (leBits key)) :
    List.Forall₂ (Along (std.Reads mode w)) (roundKeyVars std keyLe) (roundKeys key) := by
  have hdes : Along (std.Reads mode w) (leToDes 8 keyLe) (bytesToDesBits key) := by
    rw [← leToDes_leBits]
    exact along_leToDes (n := 8) hkey
  have hpc1 : Along (std.Reads mode w) (permuteVars std (leToDes 8 keyLe) PC1)
      (permute (bytesToDesBits key) PC1) := hdes.gather PC1
  obtain ⟨hc, hd⟩ := along_halves (m := 28) hpc1
  exact along_scheduleFrom SHIFTS hc hd

/-- The halves carry the cipher's halves. -/
def RoundState.Tracks (mode : Mode) (w : Assignment Fr) (s : RoundState std)
    (t : Vector Bool 32 × Vector Bool 32) : Prop :=
  Along (std.Reads mode w) s.l t.1 ∧ Along (std.Reads mode w) s.r t.2
    ∧ (mode = .complete → s.lNative = t.1 ∧ s.rNative = t.2)

/-- A round key and its native copy carry the cipher's round key. -/
def TracksKey (mode : Mode) (w : Assignment Fr) (k : Vector std.Boolean 48 × Vector Bool 48)
    (k' : Vector Bool 48) : Prop :=
  Along (std.Reads mode w) k.1 k' ∧ (mode = .complete → k.2 = k')

variable (law : std.Lawful)
include law

theorem xorVars_reads {n : ℕ} {a b : Vector std.Boolean n} {u v : Vector Bool n}
    (ha : Along (std.Reads mode w) a u) (hb : Along (std.Reads mode w) b v) :
    Ensures mode w (xorVars std a b) fun c => Along (std.Reads mode w) c (xorBits u v) := by
  refine (Ensures.ofFnM fun i : Fin n => law.xor_reads (ha i.val i.isLt) (hb i.val i.isLt)).mono
    fun c hc i hi => ?_
  simpa [xorBits] using hc i hi

theorem desRound_reads {s : RoundState std} {t : Vector Bool 32 × Vector Bool 32}
    {k : Vector std.Boolean 48 × Vector Bool 48} {k' : Vector Bool 48}
    (hs : s.Tracks mode w t) (hk : TracksKey mode w k k') :
    Ensures mode w (desRound std s k) fun s' =>
      s'.Tracks mode w (t.2, xorBits t.1 (feistel t.2 k')) := by
  obtain ⟨hl, hr, hnat⟩ := hs
  obtain ⟨hkv, hkn⟩ := hk
  set xs : Vector Bool (8 * 6) := xorBits (permute t.2 E) k'
  refine (xorVars_reads law (hr.gather E) hkv).bind fun xored hxored => ?_
  have hsbox : ∀ b : Fin 8, Ensures mode w
      (sboxGadget std b (chunk xored b) (chunk (xorBits (permute s.rNative E) k.2) b)) fun out =>
        Along (std.Reads mode w) out (sboxBits (sboxLookup b (chunk xs b))) := fun b =>
    sboxGadget_reads law (Along.chunk (n := 8) (m := 6) hxored b) fun hm => by
      rw [(hnat hm).2, hkn hm]
  refine (Ensures.ofFnM hsbox).bind fun sOut hsOut => ?_
  have hf : Along (std.Reads mode w) (permuteVars std (sOut.flatten : Vector _ (8 * 4)) P)
      (feistel t.2 k') := by
    have hflat : Along (std.Reads mode w) (sOut.flatten : Vector _ (8 * 4))
        (Vector.ofFn fun b : Fin 8 => sboxBits (sboxLookup b (chunk xs b))).flatten :=
      Along.flatten fun i hi => by simpa using hsOut i hi
    exact hflat.gather P
  refine (xorVars_reads law hl hf).bind fun newR hnewR => Ensures.pure ⟨hr, hnewR, fun hm => ?_⟩
  refine ⟨(hnat hm).2, ?_⟩
  simp only [(hnat hm).1, (hnat hm).2, hkn hm]
  rfl

/-- **The DES gadget computes DES.** -/
theorem desGadget_reads {dataDes keyLe : Vector std.Boolean 64} {encrypt : Bool}
    {data key witnessData witnessKey : Block}
    (hdata : Along (std.Reads mode w) dataDes (bytesToDesBits data))
    (hkey : Along (std.Reads mode w) keyLe (leBits key))
    (hint : mode = .complete → data = witnessData ∧ key = witnessKey) :
    Ensures mode w (desGadget std dataDes keyLe encrypt witnessData witnessKey) fun out =>
      Along (std.Reads mode w) out (bytesToDesBits (desBlock data key encrypt)) := by
  have hvars : List.Forall₂ (Along (std.Reads mode w))
      (if encrypt then roundKeyVars std keyLe else (roundKeyVars std keyLe).reverse)
      (if encrypt then roundKeys key else (roundKeys key).reverse) := by
    split
    · exact roundKeyVars_reads hkey
    · exact List.rel_reverse (roundKeyVars_reads hkey)
  have hnat : List.Forall₂ (fun k k' => mode = .complete → k = k')
      (if encrypt then roundKeys witnessKey else (roundKeys witnessKey).reverse)
      (if encrypt then roundKeys key else (roundKeys key).reverse) := by
    refine forall₂_of_eq ?_ fun hm => by rw [(hint hm).2]
    split <;> simp
  have hkeys := forall₂_zip hvars hnat
  have hip : Along (std.Reads mode w) (permuteVars std dataDes IP)
      (permute (bytesToDesBits data) IP) := hdata.gather IP
  obtain ⟨hl, hr⟩ := along_halves (m := 32) hip
  have hrounds := Ensures.foldlM (R := TracksKey mode w) (I := RoundState.Tracks mode w)
    (g := fun t k => (t.2, xorBits t.1 (feistel t.2 k)))
    (fun s t k k' hs hk => desRound_reads law hs hk) hkeys
    (s := ⟨_, _, (halves (m := 32) (permute (bytesToDesBits witnessData) IP)).1,
      (halves (m := 32) (permute (bytesToDesBits witnessData) IP)).2⟩)
    ⟨hl, hr, fun hm => by rw [(hint hm).1]; exact ⟨rfl, rfl⟩⟩
  rw [bytesToDesBits_desBlock]
  refine hrounds.bind fun s hs => Ensures.pure ?_
  exact (hs.2.1.append hs.1).gather fpTable

/-- **The EDE gadget computes EDE.** -/
theorem tdesEncryptGadget_reads {dataDes k1Le k2Le : Vector std.Boolean 64}
    {data k1 k2 wData wK1 wK2 : Block}
    (hdata : Along (std.Reads mode w) dataDes (bytesToDesBits data))
    (hk1 : Along (std.Reads mode w) k1Le (leBits k1))
    (hk2 : Along (std.Reads mode w) k2Le (leBits k2))
    (hint : mode = .complete → data = wData ∧ k1 = wK1 ∧ k2 = wK2) :
    Ensures mode w (tdesEncryptGadget std dataDes k1Le k2Le wData wK1 wK2) fun out =>
      Along (std.Reads mode w) out (bytesToDesBits (tdesEncrypt data k1 k2)) := by
  refine (desGadget_reads law hdata hk1 fun hm => ⟨(hint hm).1, (hint hm).2.1⟩).bind
    fun e1 he1 => ?_
  refine (desGadget_reads law he1 hk2 fun hm => ?_).bind fun d2 hd2 => ?_
  · obtain ⟨rfl, rfl, rfl⟩ := hint hm
    exact ⟨rfl, rfl⟩
  · refine desGadget_reads law hd2 hk1 fun hm => ?_
    obtain ⟨rfl, rfl, rfl⟩ := hint hm
    exact ⟨rfl, rfl⟩

theorem enforceVars_reads {n : ℕ} {a b : Vector std.Boolean n} {u v : Vector Bool n}
    (ha : Along (std.Reads mode w) a u) (hb : Along (std.Reads mode w) b v)
    (h : mode = .complete → u = v) :
    Ensures mode w (enforceVars std a b) fun _ => u = v := by
  refine (Ensures.forEach (P := fun i : Fin n => u[i] = v[i]) fun i _ =>
    law.enforceEqual_reads (ha i.val i.isLt) (hb i.val i.isLt) fun hm => by rw [h hm]).mono
    fun _ hall => ?_
  ext i hi
  rw [show u[i] = v[i] from hall ⟨i, hi⟩ (List.mem_finRange _)]

end Reads

/-! ### The gadgets return -/

section Returns

variable {std : R1csStd}

def Varies {n : ℕ} (v : Vector std.Boolean n) : Prop :=
  ∀ (i : ℕ) (h : i < n), std.isConstant v[i] = false

theorem Varies.gather {n m : ℕ} {v : Vector std.Boolean n} (h : Varies v)
    (t : Vector (Fin n) m) : Varies (Wiring.gather v t) := by
  intro i hi
  simpa using h _ _

theorem Varies.append {n m : ℕ} {u : Vector std.Boolean n} {v : Vector std.Boolean m}
    (hu : Varies u) (hv : Varies v) : Varies (u ++ v) := by
  intro i hi
  rw [Vector.getElem_append hi]
  split
  · exact hu _ _
  · exact hv _ _

variable (law : std.Lawful)
include law

theorem allocLeBits_returns {n : ℕ} (bytes : Vector UInt8 n) :
    Returns (allocLeBits std bytes) Varies :=
  (Returns.ofFnM fun _ => law.newWitness_returns _).mono fun _ h => h

theorem xorVars_returns {n : ℕ} (a b : Vector std.Boolean n) :
    Returns (xorVars std a b) fun c => Varies a ∨ Varies b → Varies c := by
  refine (Returns.ofFnM fun i => law.xor_returns _ _).mono fun c hc hv i hi => ?_
  rw [← Bool.not_eq_true]
  intro hconst
  obtain ⟨ha, hb⟩ := hc i hi hconst
  rcases hv with h | h
  · exact absurd (ha.symm.trans (h i hi)) (by decide)
  · exact absurd (hb.symm.trans (h i hi)) (by decide)

/-- The new right half comes out of S-boxes. -/
theorem desRound_returns (s : RoundState std) (k : Vector std.Boolean 48 × Vector Bool 48) :
    Returns (desRound std s k) fun s' => s'.l = s.r ∧ Varies s'.r := by
  refine (xorVars_returns law _ _).bind fun xored _ => ?_
  refine (Returns.ofFnM fun b => sboxGadget_returns law b _ _).bind fun sOut hsOut => ?_
  have hflat : Varies (sOut.flatten : Vector std.Boolean (8 * 4)) := by
    intro i hi
    rw [Vector.getElem_flatten hi]
    exact hsOut _ _ _ _
  exact (xorVars_returns law _ _).bind fun newR hnewR =>
    Returns.pure ⟨rfl, hnewR (.inr (hflat.gather P))⟩

/-- After two rounds both halves have come out of S-boxes. -/
theorem desRounds_returns (s : RoundState std)
    (ks : List (Vector std.Boolean 48 × Vector Bool 48)) (h : 2 ≤ ks.length) :
    Returns (foldlM (desRound std) s ks) fun s' => Varies s'.l ∧ Varies s'.r := by
  match ks, h with
  | k1 :: k2 :: ks, _ =>
    refine (desRound_returns law s k1).bind fun s1 h1 => ?_
    refine (desRound_returns law s1 k2).bind fun s2 h2 => ?_
    refine Returns.foldlM (fun s k hs => ?_) ⟨h2.1 ▸ h1.2, h2.2⟩
    exact (desRound_returns law s k).mono fun s' hs' => ⟨hs'.1 ▸ hs.2, hs'.2⟩

theorem desGadget_returns (dataDes keyLe : Vector std.Boolean 64) (encrypt : Bool)
    (witnessData witnessKey : Block) :
    Returns (desGadget std dataDes keyLe encrypt witnessData witnessKey) Varies := by
  have hvars : (if encrypt then roundKeyVars std keyLe
      else (roundKeyVars std keyLe).reverse).length = 16 := by
    split <;> simp [roundKeyVars, SHIFTS]
  have hnat : (if encrypt then roundKeys witnessKey
      else (roundKeys witnessKey).reverse).length = 16 := by
    split <;> simp
  refine (desRounds_returns law _ _ ?_).bind fun s hs =>
    Returns.pure ((hs.2.append hs.1).gather fpTable)
  show 2 ≤ (List.zip _ (if encrypt then roundKeys witnessKey
    else (roundKeys witnessKey).reverse)).length
  rw [List.length_zip, hvars, hnat]
  decide

theorem tdesEncryptGadget_returns (dataDes k1Le k2Le : Vector std.Boolean 64)
    (wData wK1 wK2 : Block) :
    Returns (tdesEncryptGadget std dataDes k1Le k2Le wData wK1 wK2) Varies :=
  (desGadget_returns law _ _ _ _ _).bind fun _ _ =>
    (desGadget_returns law _ _ _ _ _).bind fun _ _ => desGadget_returns law _ _ _ _ _

theorem enforceVars_returns {n : ℕ} {a b : Vector std.Boolean n} (h : Varies a ∨ Varies b) :
    Returns (enforceVars std a b) fun _ => True := by
  refine Returns.forEach fun i _ => law.enforceEqual_returns _ _ ?_
  rintro ⟨ha, hb⟩
  rcases h with h | h
  · exact absurd (ha.symm.trans (h i.val i.isLt)) (by decide)
  · exact absurd (hb.symm.trans (h i.val i.isLt)) (by decide)

end Returns

end SuiCash.Prover
