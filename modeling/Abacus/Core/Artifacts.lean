import Abacus.Core.Jobs

/-!
# Where an attempt writes

`artifact_key` of `core/artifacts.py`, with the text of a `uuid.UUID` spelled out, and the object
store as a map from keys. The key is the whole mechanism that keeps two attempts apart:
`artifactKey_injective` says that two attempts never share one.
-/

set_option autoImplicit false
set_option relaxedAutoImplicit false

namespace Abacus

/-- The last `width` hexadecimal digits of a number, as `'%0…x'` writes them. -/
def hexDigits : ℕ → ℕ → List Char
  | 0, _ => []
  | width + 1, number => hexDigits width (number / 16) ++ [Nat.digitChar (number % 16)]

/-- `str` of a `uuid.UUID`: its 32 hexadecimal digits in groups of 8, 4, 4, 4 and 12. -/
def Uuid.characters (id : Uuid) : List Char :=
  let hex := hexDigits 32 id.int.toNat
  hex.take 8 ++ '-' :: (hex.drop 8).take 4 ++ '-' :: (hex.drop 12).take 4 ++
    '-' :: (hex.drop 16).take 4 ++ '-' :: hex.drop 20

/-- `artifact_key`, as the list of its characters. -/
def artifactKeyCharacters (jobId leaseId : Uuid) : List Char :=
  "jobs/".toList ++ jobId.characters ++ '/' :: leaseId.characters

/-- `artifact_key`: where one attempt at a job writes. -/
def artifactKey (jobId leaseId : Uuid) : String :=
  String.ofList (artifactKeyCharacters jobId leaseId)

/-- What is stored under a key. -/
structure StoredObject where
  data : List UInt8
  contentType : String
  deriving DecidableEq, Repr

/-- The object store: an object for some of the keys. -/
abbrev ObjectStore := String → Option StoredObject

/-! ### Two attempts never share a key -/

theorem digitChar_injective {first second : ℕ} (hfirst : first < 16) (hsecond : second < 16)
    (h : Nat.digitChar first = Nat.digitChar second) : first = second := by
  have hall : ∀ first < 16, ∀ second < 16,
      Nat.digitChar first = Nat.digitChar second → first = second := by decide
  exact hall first hfirst second hsecond h

theorem hexDigits_length (width number : ℕ) : (hexDigits width number).length = width := by
  induction width generalizing number with
  | zero => rfl
  | succ width ih => simp [hexDigits, ih]

/-- Numbers that fit have different digits. -/
theorem hexDigits_injective {width first second : ℕ} (hfirst : first < 16 ^ width)
    (hsecond : second < 16 ^ width) (h : hexDigits width first = hexDigits width second) :
    first = second := by
  induction width generalizing first second with
  | zero =>
    rw [pow_zero] at hfirst hsecond
    omega
  | succ width ih =>
    obtain ⟨hrest, hlast⟩ := List.append_inj' h rfl
    have hdigit : first % 16 = second % 16 :=
      digitChar_injective (Nat.mod_lt _ (by omega)) (Nat.mod_lt _ (by omega))
        (List.singleton_inj.mp hlast)
    have hquotient : first / 16 = second / 16 := by
      rw [pow_succ] at hfirst hsecond
      exact ih (Nat.div_lt_of_lt_mul (by omega)) (Nat.div_lt_of_lt_mul (by omega)) hrest
    omega

theorem dash_notMem_hexDigits (width number : ℕ) : '-' ∉ hexDigits width number := by
  induction width generalizing number with
  | zero => exact List.not_mem_nil
  | succ width ih =>
    have hdigit : ∀ digit < 16, '-' ≠ Nat.digitChar digit := by decide
    intro hmem
    rcases List.mem_append.mp hmem with hrest | hlast
    · exact ih (number / 16) hrest
    · exact hdigit (number % 16) (Nat.mod_lt _ (by omega)) (List.mem_singleton.mp hlast)

theorem take_drop_append (hex : List Char) (start width : ℕ) :
    (hex.drop start).take width ++ hex.drop (start + width) = hex.drop start := by
  rw [← List.drop_drop]
  exact List.take_append_drop width (hex.drop start)

/-- The digits of a `uuid.UUID` are its text without the dashes. -/
theorem Uuid.filter_characters (id : Uuid) :
    id.characters.filter (· ≠ '-') = hexDigits 32 id.int.toNat := by
  have hkeep : ∀ part : List Char, (∀ character ∈ part, character ∈ hexDigits 32 id.int.toNat) →
      part.filter (· ≠ '-') = part := by
    intro part hpart
    refine List.filter_eq_self.mpr fun character hmem ↦ ?_
    rw [decide_eq_true_eq]
    rintro rfl
    exact dash_notMem_hexDigits 32 id.int.toNat (hpart _ hmem)
  have hdash : ∀ rest : List Char, ('-' :: rest).filter (· ≠ '-') = rest.filter (· ≠ '-') :=
    fun rest ↦ List.filter_cons_of_neg (by simp)
  unfold Uuid.characters
  generalize hexDigits 32 id.int.toNat = hex at hkeep
  have hgroup : ∀ start width, ((hex.drop start).take width).filter (· ≠ '-') =
      (hex.drop start).take width := fun start width ↦
    hkeep _ fun _ hmem ↦ List.mem_of_mem_drop (List.mem_of_mem_take hmem)
  have hlast : (hex.drop 20).filter (· ≠ '-') = hex.drop 20 :=
    hkeep _ fun _ hmem ↦ List.mem_of_mem_drop hmem
  calc (hex.take 8 ++ '-' :: (hex.drop 8).take 4 ++ '-' :: (hex.drop 12).take 4 ++
        '-' :: (hex.drop 16).take 4 ++ '-' :: hex.drop 20).filter (· ≠ '-')
      = hex.take 8 ++ (hex.drop 8).take 4 ++ (hex.drop 12).take 4 ++ (hex.drop 16).take 4 ++
          hex.drop 20 := by
        have hfirst := hgroup 0 8
        rw [List.drop_zero] at hfirst
        simp only [List.filter_append, hdash, hgroup, hlast, hfirst]
    _ = hex.take 8 ++ hex.drop 8 := by
        rw [List.append_assoc, take_drop_append hex 16 4, List.append_assoc,
          take_drop_append hex 12 4, List.append_assoc, take_drop_append hex 8 4]
    _ = hex := List.take_append_drop 8 hex

theorem Uuid.characters_injective {first second : Uuid}
    (h : first.characters = second.characters) : first = second := by
  have hdigits := congrArg (List.filter (· ≠ '-')) h
  rw [Uuid.filter_characters, Uuid.filter_characters] at hdigits
  have hint : first.int.toNat = second.int.toNat :=
    hexDigits_injective (by simpa using first.int.isLt) (by simpa using second.int.isLt) hdigits
  obtain ⟨first⟩ := first
  obtain ⟨second⟩ := second
  exact congrArg Uuid.mk (BitVec.eq_of_toNat_eq hint)

theorem Uuid.characters_length (id : Uuid) : id.characters.length = 36 := by
  have hlength := hexDigits_length 32 id.int.toNat
  simp [Uuid.characters, hlength]

/-- Two attempts never share a key. -/
theorem artifactKey_injective {jobId otherJob leaseId otherLease : Uuid}
    (h : artifactKey jobId leaseId = artifactKey otherJob otherLease) :
    jobId = otherJob ∧ leaseId = otherLease := by
  have hcharacters : artifactKeyCharacters jobId leaseId =
      artifactKeyCharacters otherJob otherLease := String.ofList_injective h
  obtain ⟨hjob, hlease⟩ := List.append_inj hcharacters (by simp [Uuid.characters_length])
  exact ⟨Uuid.characters_injective (List.append_cancel_left hjob),
    Uuid.characters_injective ((List.cons_inj_right _).mp hlease)⟩

end Abacus
