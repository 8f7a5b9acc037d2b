import SuiCash.Prover.Prove

/-!
# Every statement is provable

`forge` of `prover/tests/forgery_authority.rs` makes a circuit out of nothing but
choices: keys, an identifier, a challenge, a session key, the PMi and a transaction
number.  It derives what the keys determine, and no card is asked.

`checkSatisfiable_iff_forge` says that these are all the circuits there are: a
circuit is satisfiable exactly when it is forged from its own keys, with some
transaction number and some PMi.  Both of these are free, and so are the keys:
every public statement is provable under every key set (`forge_satisfiable`).
-/

namespace SuiCash.Prover

open Des Wiring Fallible

/-- The AUTH2 payload: transaction number, tail of the challenge, IDi, PMi. -/
def auth2Payload (tn : Vector UInt8 2) (r1 idi pmi : Block) : List UInt8 :=
  tn.toList ++ r1.toList.extract 2 8 ++ idi.toList ++ pmi.toList

/-- A self-consistent session over chosen keys; `none` where a conversion panics. -/
def forge (gsk usk idm idi r1 r2 pmi : Block) (tn : Vector UInt8 2) (attestedAt : UInt64) :
    Option FelicaCircuit := do
  let l := xor8 gsk idm
  let alpha := desEncrypt usk l
  let beta := desEncrypt l alpha
  let c1b := tdesEncrypt r1 l beta
  let c2a := tdesEncrypt r2 l beta
  let p := auth2Payload tn r1 idi pmi
  let mac ← commandMac 0x13 p
  let ct ← cbcEncryptZeroIv (p ++ mac.toList) r2
  let auth2 ← copyFromSlice 32 ct
  some ⟨idi, r1, attestedAt, gsk, usk, idm, c1b, c2a, r2, auth2⟩

/-! ### The payload as blocks -/

def auth2Header (tn : Vector UInt8 2) (r1 : Block) : Block :=
  ⟨(tn.toList ++ r1.toList.extract 2 8).toArray, by simp⟩

@[simp] theorem toList_auth2Header (tn : Vector UInt8 2) (r1 : Block) :
    (auth2Header tn r1).toList = tn.toList ++ r1.toList.extract 2 8 := rfl

theorem auth2Payload_eq (tn : Vector UInt8 2) (r1 idi pmi : Block) :
    auth2Payload tn r1 idi pmi = join [auth2Header tn r1, idi, pmi] := by
  simp [auth2Payload]

theorem sameTid_iff_auth2Header {p0 r1 : Block} :
    SameTid p0 r1 ↔ ∃ tn, p0 = auth2Header tn r1 := by
  rw [← extract_tid_eq_iff]
  constructor
  · intro h
    refine ⟨⟨(p0.toList.take 2).toArray, by simp⟩, Vector.toList_inj.mp ?_⟩
    have htail : p0.toList.extract 2 8 = p0.toList.drop 2 := by
      rw [List.extract_eq_take_drop, List.take_of_length_le (by simp)]
    rw [toList_auth2Header, ← h, htail]
    exact (List.take_append_drop 2 p0.toList).symm
  · rintro ⟨tn, rfl⟩
    have hlen : tn.toList.length = 2 := by simp
    rw [toList_auth2Header, List.extract_eq_take_drop, List.drop_left' hlen]
    exact List.take_of_length_le (by simp)

theorem auth2Header_zero (r1 : Block) : auth2Header #v[0, 0] r1 = freshHeader r1 := by
  obtain ⟨tn, htn⟩ := sameTid_iff_auth2Header.mp (sameTid_freshHeader r1)
  have hzero : tn = #v[0, 0] := by
    have h := congrArg (fun b : Block => b.toList.take 2) htn
    have hlen : tn.toList.length = 2 := by simp
    simp only [toList_auth2Header, List.take_left' hlen] at h
    have hfresh : (freshHeader r1).toList.take 2 = [0, 0] := by
      simp [freshHeader, Vector.toList_ofFn, List.ofFn_succ]
    exact Vector.toList_inj.mp (h.symm.trans hfresh)
  rw [htn, hzero]

/-! ### What is forged -/

/-- **Nothing in `forge` panics.** -/
theorem forge_eq (gsk usk idm idi r1 r2 pmi : Block) (tn : Vector UInt8 2) (attestedAt : UInt64) :
    forge gsk usk idm idi r1 r2 pmi tn attestedAt =
      let l := xor8 gsk idm
      let beta := desEncrypt l (desEncrypt usk l)
      let p0 := auth2Header tn r1
      some ⟨idi, r1, attestedAt, gsk, usk, idm, tdesEncrypt r1 l beta, tdesEncrypt r2 l beta, r2,
        encryptAuth2 p0 idi pmi (macBlock p0 idi pmi) r2⟩ := by
  have hjoin : ∀ p3 : Block, join [auth2Header tn r1, idi, pmi] ++ p3.toList
      = join [auth2Header tn r1, idi, pmi, p3] := fun p3 => by simp
  unfold forge
  dsimp only
  rw [auth2Payload_eq, commandMac_three, Option.bind_eq_bind, Option.bind_some, hjoin,
    cbcEncryptZeroIv_encryptAuth2, Option.bind_eq_bind, Option.bind_some, copyFromSlice_toList,
    Option.bind_eq_bind, Option.bind_some]

/-- **A circuit is satisfiable exactly when it is forged**, from its own keys and
its own claim. -/
theorem checkSatisfiable_iff_forge {std : R1csStd} (law : std.Lawful) (circuit : FelicaCircuit) :
    checkSatisfiable std circuit = true ↔ ∃ pmi tn,
      forge circuit.gsk circuit.usk circuit.idm circuit.idi circuit.r1 circuit.r2 pmi tn
        circuit.attestedAt = some circuit := by
  obtain ⟨idi, r1, attestedAt, gsk, usk, idm, c1b, c2a, r2, auth2⟩ := circuit
  rw [checkSatisfiable_iff law, Transcript.consistent_iff_encryptAuth2]
  simp only [forge_eq, Option.some.injEq, FelicaCircuit.mk.injEq, true_and, sameTid_iff_auth2Header]
  constructor
  · rintro ⟨hc1b, hc2a, _, pmi, ⟨tn, rfl⟩, hauth2⟩
    exact ⟨pmi, tn, hc1b, hc2a, hauth2.symm⟩
  · rintro ⟨pmi, tn, hc1b, hc2a, hauth2⟩
    exact ⟨hc1b, hc2a, _, pmi, ⟨tn, rfl⟩, hauth2.symm⟩

/-- The circuit of an honest session is the one forged with transaction number
zero. -/
theorem forge_zero (gsk usk idm idi r1 r2 pmi : Block) (attestedAt : UInt64) :
    forge gsk usk idm idi r1 r2 pmi #v[0, 0] attestedAt
      = some (.ofTranscript (.honest gsk usk idm r1 r2 idi pmi) attestedAt) := by
  rw [forge_eq, auth2Header_zero]
  rfl

/-- **Every public statement is provable under every key set.**  What is forged is
satisfiable, whatever was chosen; so is every honest session, whose pre-checks pass
too; and so is every claim under every invented key set. -/
theorem forge_satisfiable {std : R1csStd} (law : std.Lawful) :
    (∀ (gsk usk idm idi r1 r2 pmi : Block) (tn : Vector UInt8 2) (attestedAt : UInt64),
      ∃ circuit, forge gsk usk idm idi r1 r2 pmi tn attestedAt = some circuit
        ∧ checkSatisfiable std circuit = true)
    ∧ (∀ (gsk usk idm idi r1 r2 pmi : Block) (attestedAt : UInt64),
      let req := honestRequest gsk usk idm r1 r2 idi pmi attestedAt
      preChecks req = .ok ⟨idi, r1, r2⟩ ∧ checkSatisfiable std (req.circuit ⟨idi, r1, r2⟩) = true)
    ∧ ∀ (idi r1 : Block) (attestedAt : UInt64) (gsk usk idm : Block),
      ∃ circuit : FelicaCircuit, circuit.publicInputs = ⟨idi, r1, attestedAt⟩
        ∧ circuit.gsk = gsk ∧ circuit.usk = usk ∧ circuit.idm = idm
        ∧ checkSatisfiable std circuit = true := by
  have hforge : ∀ (gsk usk idm idi r1 r2 pmi : Block) (tn : Vector UInt8 2) (attestedAt : UInt64),
      ∃ circuit, forge gsk usk idm idi r1 r2 pmi tn attestedAt = some circuit
        ∧ circuit.publicInputs = ⟨idi, r1, attestedAt⟩
        ∧ circuit.gsk = gsk ∧ circuit.usk = usk ∧ circuit.idm = idm
        ∧ checkSatisfiable std circuit = true := by
    intro gsk usk idm idi r1 r2 pmi tn attestedAt
    have hforged := forge_eq gsk usk idm idi r1 r2 pmi tn attestedAt
    exact ⟨_, hforged, rfl, rfl, rfl, rfl,
      (checkSatisfiable_iff_forge law _).mpr ⟨pmi, tn, hforged⟩⟩
  refine ⟨?_, ?_, ?_⟩
  · intro gsk usk idm idi r1 r2 pmi tn attestedAt
    obtain ⟨circuit, hforged, -, -, -, -, hsat⟩ := hforge gsk usk idm idi r1 r2 pmi tn attestedAt
    exact ⟨circuit, hforged, hsat⟩
  · intro gsk usk idm idi r1 r2 pmi attestedAt req
    have hpre : preChecks req = .ok ⟨idi, r1, r2⟩ := preChecks_honestRequest _ _ _ _ _ _ _ _
    exact ⟨hpre, (preChecks_eq_ok_iff_checkSatisfiable law).mp hpre⟩
  · intro idi r1 attestedAt gsk usk idm
    obtain ⟨circuit, -, hcircuit⟩ :=
      hforge gsk usk idm idi r1 zeroBlock zeroBlock #v[0, 0] attestedAt
    exact ⟨circuit, hcircuit⟩

/-- A forgery over invented keys, with a transaction number no card would send. -/
theorem forge_satisfiable_invented :
    ∃ circuit, forge #v[0x00, 0x11, 0x22, 0x33, 0x44, 0x55, 0x66, 0x77]
        #v[0x77, 0x66, 0x55, 0x44, 0x33, 0x22, 0x11, 0x00]
        #v[0xDE, 0xAD, 0xBE, 0xEF, 0x00, 0x11, 0x22, 0x33]
        #v[0xC0, 0xFF, 0xEE, 0x00, 0x11, 0x22, 0x33, 0x44]
        #v[0xAA, 0xBB, 0xCC, 0xDD, 0xEE, 0xFF, 0x00, 0x11]
        #v[0x0F, 0x1E, 0x2D, 0x3C, 0x4B, 0x5A, 0x69, 0x78]
        #v[0x50, 0x50, 0x50, 0x50, 0x50, 0x50, 0x50, 0x50] #v[0x34, 0x12] 0xDEADBEEF = some circuit
      ∧ checkSatisfiable arkStd circuit = true :=
  (forge_satisfiable arkStd_lawful).1 _ _ _ _ _ _ _ _ _

end SuiCash.Prover
