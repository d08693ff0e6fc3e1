import ChisLink.StatePaths

/-!
# Names of save files

The bridge names the save file of a game after a hash of its path. The hash goes through
every byte by steps that can be undone, so a single byte always makes a difference.
-/

namespace ChisLink.SavePaths

open StatePaths

/-- One round of the hash. -/
def hashRound (hash : UInt32) (b : UInt8) : UInt32 := (hash ^^^ b.toUInt32)*16777619

/-- The function `bridge_path_hash` on the bytes before the terminator. -/
def bridgePathHash (path : List UInt8) : UInt32 := path.foldl hashRound 2166136261

/-- The string `hex`. -/
def hex : List UInt8 :=
  ascii ['0','1','2','3','4','5','6','7','8','9','a','b','c','d','e','f']

/-- The character for the bits at `shift`. -/
def hexAt (hash shift : UInt32) : UInt8 := hex.getD ((hash >>> shift) &&& 0x0f).toNat 0

/-- The string that `bridge_build_save_path` writes. -/
def bridgeBuildSavePath (path : List UInt8) : List UInt8 :=
  chislinkDirectory++ascii ['/','e','m','u','l','a','t','o','r','s','/']++
    Emulator.goombacolor.name++ascii ['/']++
    [28,24,20,16,12,8,4,0].map (hexAt (bridgePathHash path))++savExtension

theorem hashRound_eq {a b : UInt32} {x y : UInt8} :
    hashRound a x=hashRound b y ↔ a ^^^ x.toUInt32=b ^^^ y.toUInt32 := by
  refine ⟨fun h => ?_,congrArg (·*16777619)⟩
  have hone : (16777619 : UInt32)*899433627=1 := by decide
  have hundone := congrArg (·*899433627) h
  unfold hashRound at hundone
  simpa only [UInt32.mul_assoc,hone,UInt32.mul_one] using hundone

theorem foldl_hashRound {a b : UInt32} (rest : List UInt8) :
    rest.foldl hashRound a=rest.foldl hashRound b ↔ a=b := by
  induction rest generalizing a b with
  | nil => rfl
  | cons x rest ih => rw [List.foldl_cons,List.foldl_cons,ih,hashRound_eq,UInt32.xor_left_inj]

theorem hex_injective : ∀ m n : Fin 16,hex.getD m.val 0=hex.getD n.val 0 → m=n := by decide

theorem hexAt_eq {a b shift : UInt32} (h : hexAt a shift=hexAt b shift) :
    a.toNat/2^(shift.toNat%32)%16=b.toNat/2^(shift.toNat%32)%16 := by
  have hbits : ∀ c : UInt32,
      ((c >>> shift) &&& 0x0f).toNat=c.toNat/2^(shift.toNat%32)%16 := by
    intro c
    have hmask : (0x0f : UInt32).toNat=2^4-1 := rfl
    rw [UInt32.toNat_and,hmask,Nat.and_two_pow_sub_one_eq_mod,UInt32.toNat_shiftRight,
      Nat.shiftRight_eq_div_pow]
  unfold hexAt at h
  rw [hbits,hbits] at h
  exact congrArg Fin.val
    (hex_injective ⟨_,Nat.mod_lt _ (by decide)⟩ ⟨_,Nat.mod_lt _ (by decide)⟩ h)

/-- The eight characters tell the hash. -/
theorem bridgeBuildSavePath_eq {p q : List UInt8} :
    bridgeBuildSavePath p=bridgeBuildSavePath q ↔ bridgePathHash p=bridgePathHash q := by
  refine ⟨fun h => ?_,fun h => by rw [bridgeBuildSavePath,h]; rfl⟩
  have hdigits := List.append_cancel_left (List.append_cancel_right h)
  have hsame : ∀ shift∈([28,24,20,16,12,8,4,0] : List UInt32),_ := fun shift hshift =>
    hexAt_eq (List.map_inj_left.mp hdigits shift hshift)
  simp only [List.forall_mem_cons] at hsame
  obtain ⟨h7,h6,h5,h4,h3,h2,h1,h0,-⟩ := hsame
  have hp := (bridgePathHash p).toNat_lt
  have hq := (bridgePathHash q).toNat_lt
  rw [← UInt32.toNat_inj]
  simp at h0 h1 h2 h3 h4 h5 h6 h7
  omega

/-- Games whose paths have the same length and differ in one byte have save files of their
own. And what follows equal hashes keeps them equal: such games share a file. -/
theorem save_files_differ (front other rest : List UInt8) (a b : UInt8) :
    (bridgeBuildSavePath (front++a::rest)=bridgeBuildSavePath (front++b::rest) ↔ a=b) ∧
      (bridgeBuildSavePath (front++rest)=bridgeBuildSavePath (other++rest) ↔
        bridgeBuildSavePath front=bridgeBuildSavePath other) := by
  simp only [bridgeBuildSavePath_eq]
  unfold bridgePathHash
  simp only [List.foldl_append,List.foldl_cons,foldl_hashRound]
  rw [hashRound_eq,UInt32.xor_right_inj,UInt8.toUInt32_inj]
  exact ⟨Iff.rfl,trivial⟩

end ChisLink.SavePaths
