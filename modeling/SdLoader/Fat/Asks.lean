import SdLoader.Fat.Read

/-!
# What reading a file asks of the drive

Whatever is on the drive, and whatever it answers, `f_read` asks for nothing but sectors of the FAT
and sectors of clusters.

* `fReads_keeps` — what every piece that is `Allowed` keeps, any number of calls of `f_read` keep;
* `logged` — a drive with a record of what it has been asked for; `fReads_allowed` is about this
  record;
* `noted` — one with a record of its answers, too: `Fault` says of this record why a call has
  failed;
* `Layout.inside` — and where the layout of the volume is right, what is allowed is inside of it.
-/

set_option autoImplicit false

namespace SdLoader
namespace Fat

open Files (Block)
open Payload (Piece)

variable {v : Volume} (fp : Fil)

/-! ## Pieces that are allowed -/

section
variable {σ : Type} {read : Piece → σ → Option Block × σ} {I : σ → Prop} {x : Access σ}

/-- What every piece that is allowed keeps. -/
def Keeps (v : Volume) (read : Piece → σ → Option Block × σ) (I : σ → Prop) : Prop :=
  ∀ p d, Allowed v p → I d → I (read p d).2

theorem followChain_keeps (hkeeps : Keeps v read I) (hx : I x.2) :
    I (followChain read v fp x).2.2 := by
  rw [followChain]
  split
  · exact hx
  · exact Scan.run_inv (fun s d hd hs ↦ hkeeps (.fat s) d (.fat hs) hd) _ hx
      (getFat_along _ v _ _ x)

theorem enterCluster_keeps (hkeeps : Keeps v read I) (hx : I x.2) :
    I (enterCluster read v fp x).2.2.2 := by
  have h := followChain_keeps fp hkeeps hx
  rw [enterCluster]
  split
  · rcases hf : followChain read v fp x with ⟨clst, x'⟩
    rw [hf] at h
    dsimp only at h ⊢
    split
    · exact h
    · split <;> exact h
  · exact hx

/-- A number of sectors from which `clst2sect` is not 0. -/
theorem good_of_clst2sect {clst : ℕ} (h : clst2sect v clst ≠ 0) :
    Good v clst ∧ clst2sect v clst = (v.database + v.csize * (clst - 2)) % 2 ^ 64 := by
  rw [clst2sect] at h ⊢
  split at h
  · exact absurd rfl h
  · next hgood =>
    rw [if_neg hgood]
    exact ⟨⟨by omega, by omega⟩, rfl⟩

theorem readSectors_keeps (hshape : Shape v) (hkeeps : Keeps v read I) (hx : I x.2) {btr : ℕ}
    (hbtr : 0 < btr) : I (readSectors read v btr fp x).2.2.2 := by
  have hlt := hshape.csect_lt fp
  rw [readSectors]
  dsimp only
  split
  · exact hx
  · next hne =>
    obtain ⟨hgood, hsect⟩ := good_of_clst2sect hne
    rw [hsect, Nat.mod_add_mod]
    split
    · next hcc =>
      obtain ⟨hpos, -, hend⟩ := clip_spec hshape fp hcc
      have h := hkeeps _ x.2 (.run hgood hpos hend) hx
      split <;> next hread => rw [hread] at h; exact h
    · split
      · have h := hkeeps _ x.2 (.part hgood hbtr (by omega) hlt) hx
        split <;> next hread => rw [hread] at h; exact h
      · exact hx

theorem readRound_keeps (hshape : Shape v) (hkeeps : Keeps v read I) (hx : I x.2) {btr : ℕ}
    (hbtr : 0 < btr) : I (readRound read v btr fp x).2.2.2 := by
  have h := enterCluster_keeps fp hkeeps hx
  rw [readRound]
  split
  · rcases he : enterCluster read v fp x with ⟨_ | e, fp', x'⟩
    · rw [he] at h
      exact readSectors_keeps _ hshape hkeeps h hbtr
    · rw [he] at h
      exact h
  · exact hx

theorem readLoop_keeps (hshape : Shape v) (hkeeps : Keeps v read I) (n : ℕ) {btr : ℕ} (hx : I x.2) :
    I (readLoop read v n btr fp x).2.2.2.2 := by
  induction n generalizing btr fp x with
  | zero => exact hx
  | succ n ih =>
    rw [readLoop]
    split
    · exact hx
    · next hpos =>
      have h := readRound_keeps fp hshape hkeeps hx (Nat.pos_of_ne_zero hpos)
      rcases hr : readRound read v btr fp x with ⟨e | bytes, fp', x'⟩
      · rw [hr] at h
        exact h
      · rw [hr] at h
        exact ih _ h

theorem fRead_keeps {m : Mounted} (hshape : Shape m.vol) (hkeeps : Keeps m.vol read I) (btr : ℕ)
    (hx : I x.2) : I (fRead read (some m) btr fp x).2.2.2.2 := by
  rw [fRead, validate]
  split
  · exact hx
  · next v hv =>
    split at hv
    · cases hv
      split
      · exact hx
      · split
        · exact readLoop_keeps _ hshape hkeeps _ hx
        · exact hx
    · cases hv

/-- **Any number of calls** keep what every piece that is allowed keeps. -/
theorem fReads_keeps {m : Mounted} (hshape : Shape m.vol) (hkeeps : Keeps m.vol read I)
    (btrs : List ℕ) (hx : I x.2) : I (fReads read (some m) btrs fp x).2.2.2 := by
  induction btrs generalizing fp x with
  | nil => exact hx
  | cons btr btrs ih =>
    have h := fRead_keeps fp hshape hkeeps btr hx
    rw [fReads]
    rcases hr : fRead read (some m) btr fp x with ⟨res, bytes, fp', x'⟩
    rw [hr] at h
    exact ih _ h

end

/-! ## A record -/

section
variable {σ : Type}

/-- A drive with a record of what it has been asked for. -/
def logged (read : Piece → σ → Option Block × σ) (p : Piece) (d : List Piece × σ) :
    Option Block × List Piece × σ :=
  match read p d.2 with
  | (b, d') => (b, d.1 ++ [p], d')

/-- **`f_read` asks for nothing but what is allowed.** -/
theorem fReads_allowed (read : Piece → σ → Option Block × σ) {m : Mounted} (hshape : Shape m.vol)
    (btrs : List ℕ) (fp : Fil) (c : Scan.Cache Block) (d : σ) :
    ∀ p ∈ (fReads (logged read) (some m) btrs fp (c, [], d)).2.2.2.1, Allowed m.vol p := by
  have hkeeps : Keeps m.vol (logged read) fun d ↦ ∀ p ∈ d.1, Allowed m.vol p := by
    intro p d hp hd q hq
    rcases List.mem_append.mp hq with hold | hnew
    · exact hd q hold
    · rw [List.mem_singleton.mp hnew]
      exact hp
  exact fReads_keeps fp hshape hkeeps btrs fun p hp ↦ absurd hp List.not_mem_nil

/-- What a drive has been asked for, and what it has answered. -/
abbrev Record := List (Piece × Option Block)

/-- A drive with a record of what it has been asked for and of its answers. -/
def noted (read : Piece → σ → Option Block × σ) (p : Piece) (d : Record × σ) :
    Option Block × Record × σ :=
  match read p d.2 with
  | (b, d') => (b, d.1 ++ [(p, b)], d')

/-- It has brought everything it has been asked for. -/
def Brought (record : Record) : Prop := ∀ q ∈ record, q.2 ≠ none

theorem brought_nil : Brought [] := fun _ hq ↦ absurd hq List.not_mem_nil

/-- It has brought everything but what it has been asked for last. -/
def RefusedLast (record : Record) (p : Piece) : Prop :=
  ∃ before, Brought before ∧ record = before ++ [(p, none)]

/-- Why a call fails at byte `p`: the chain of the file breaks off there, and the drive has brought
everything; or it has refused what it was asked for last, which is what is wanted there. -/
def Fault (v : Volume) (vol : ℕ → UInt8) (obj : Obj) (record : Record) (p : ℕ) (e : Abort) : Prop :=
  Brought record ∧ Broken v vol obj p e ∨
    e = .diskErr ∧ ∃ piece, Wanted v vol obj p piece ∧ RefusedLast record piece

/-- What is so of a drive with a record until it brings nothing. -/
def AllBrought (I : σ → Prop) (d : Record × σ) : Prop := Brought d.1 ∧ I d.2

variable {vol : ℕ → UInt8} {read : Piece → σ → Option Block × σ} {I : σ → Prop}

theorem Serves.noted (h : Serves v vol read I) : Serves v vol (noted read) (AllBrought I) := by
  rintro p ⟨record, d⟩ b hp ⟨hrecord, hd⟩ hb
  obtain ⟨hd', hbytes⟩ := h p d b hp hd hb
  refine ⟨⟨fun q hq ↦ ?_, hd'⟩, hbytes⟩
  rcases List.mem_append.mp hq with hold | hnew
  · exact hrecord q hold
  · rw [List.mem_singleton.mp hnew]
    change (read p d).1 ≠ none
    rw [show (read p d).1 = some b from hb]
    exact Option.some_ne_none b

/-- A piece that has just been refused is the last one of the record. -/
theorem refusedLast_of_noted {p : Piece} {d d' : Record × σ} (hd : AllBrought I d)
    (h : noted read p d = (none, d')) : RefusedLast d'.1 p := by
  have hnone : (read p d.2).1 = none := congrArg Prod.fst h
  have hrecord : d.1 ++ [(p, (read p d.2).1)] = d'.1 := congrArg (fun r ↦ r.2.1) h
  refine ⟨d.1, hd.1, ?_⟩
  rw [← hrecord, hnone]

theorem Faulty.fault {obj : Obj} {p : ℕ} {e : Abort} {d' : Record × σ}
    (h : Faulty v vol obj (noted read) (AllBrought I) d' p e) : Fault v vol obj d'.1 p e := by
  rcases h with ⟨hd', hbroken⟩ | ⟨he, piece, d, hwanted, -, hd, hread⟩
  · exact .inl ⟨hd'.1, hbroken⟩
  · exact .inr ⟨he, piece, hwanted, refusedLast_of_noted hd hread⟩

end

/-! ## Inside the volume -/

/-- A piece, counted from the first sector of the volume: in front of the clusters if it is one of
the FAT, and behind the FAT otherwise. -/
def Inside (v : Volume) (fatOfs dataOfs total : ℕ) (p : Piece) : Prop :=
  ∃ o, p.sector = (v.volbase + o) % 2 ^ 64 ∧ o + p.count ≤ total ∧
    match p with
    | .fat _ => fatOfs ≤ o ∧ o + 1 ≤ dataOfs
    | .run _ _ => dataOfs ≤ o
    | .part _ _ => dataOfs ≤ o

/-- **What is allowed is inside the volume**, if its layout is right. -/
theorem Layout.inside {fatOfs dataOfs total : ℕ} (h : Layout v fatOfs dataOfs total) {p : Piece}
    (hp : Allowed v p) : Inside v fatOfs dataOfs total p := by
  have hclst : ∀ {clst o n : ℕ}, Good v clst → o + n ≤ v.csize →
      dataOfs + v.csize * (clst - 2) + o + n ≤ total := by
    rintro clst o n ⟨hlow, hhigh⟩ ho
    have hmul : v.csize * (clst - 2 + 1) ≤ v.csize * (v.nFatent - 2) :=
      Nat.mul_le_mul_left _ (by omega)
    have hdata := h.data
    rw [Nat.mul_succ] at hmul
    omega
  have hplace : ∀ k, (v.database + k) % 2 ^ 64 = (v.volbase + (dataOfs + k)) % 2 ^ 64 := by
    intro k
    rw [h.database, Nat.mod_add_mod, Nat.add_assoc]
  cases hp with
  | @fat s hs =>
    obtain ⟨o, ho, rfl⟩ := hs
    have hfat := h.fat
    have hdata := h.data
    refine ⟨fatOfs + o, ?_, ?_, Nat.le_add_right _ _, by omega⟩
    · rw [Piece.sector, h.fatbase, Nat.mod_add_mod, Nat.add_assoc]
    · rw [Piece.count]
      omega
  | @run clst o count hgood hpos hend =>
    refine ⟨dataOfs + (v.csize * (clst - 2) + o), ?_, ?_, Nat.le_add_right _ _⟩
    · rw [Piece.sector, Nat.add_assoc, hplace]
    · rw [Piece.count, ← Nat.add_assoc]
      exact hclst hgood hend
  | @part clst o n hgood hpos hlt hend =>
    refine ⟨dataOfs + (v.csize * (clst - 2) + o), ?_, ?_, Nat.le_add_right _ _⟩
    · rw [Piece.sector, Nat.add_assoc, hplace]
    · rw [Piece.count, ← Nat.add_assoc]
      exact hclst hgood hend

end Fat
end SdLoader
