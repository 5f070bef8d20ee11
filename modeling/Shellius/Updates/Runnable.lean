import Shellius.Updates.Swap

/-!
# What an upgrade leaves

The images are built over the normal tags, and the folder is removed before the new one is moved to
its place, so that there are stretches in which the host is not whole.  A failure of a command
before the switch is repaired by the trap; a failure in the switch, in the trap, or of a rollback,
and a kill, are not.  And an image that a killed build has left under a normal tag is kept by the
next upgrade as one of the old release.
-/

namespace Shellius.Updates.Script

open Lib

/-! ## The condition -/

/-- The process is killed, and a rollback fails, only while the host is whole; in an upgrade the
removing and the moving of the folder do not fail, the images to keep are all found, and the trap
fails for no image but one that is right already. -/
def settled (m : Machine) : Event → Bool
  | .kill => m.isWhole
  | .fail =>
    match m.process with
    | some (.upgrade u) =>
      match u.pc with
      | .removing | .moving => false
      | .leaving (img :: _) => m.images img = some u.current
      | _ => true
    | some (.rollback r) => r.pc = .starting || m.isWhole
    | none => true
  | .miss =>
    match m.process with
    | some (.upgrade u) =>
      match u.pc with
      | .leaving (img :: _) => m.images img = some u.current
      | _ => false
    | _ => true
  | .upgrade .. | .rollback .. | .go | .built _ | .partly _ => true

def Settled (m : Machine) (e : Event) (_ : Machine) : Prop := settled m e = true

/-! ## The invariant -/

/-- The folder is a release, whose migrations the database has. -/
def Machine.HasCode (m : Machine) (version : Version) : Prop :=
  m.code = .release version ∧ version ∈ m.migrated

/-- All normal tags name the images of a release. -/
def Machine.HasImages (m : Machine) (version : Version) : Prop :=
  ∀ img, m.images img = some version

/-- The current images have been kept. -/
def Upgrade.HasKept (m : Machine) (u : Upgrade) : Prop :=
  u.retagged = true ∧ ∀ img, m.kept img u.current = some u.current

/-- What is known at a place of an upgrade. -/
def Upgrade.Fits (m : Machine) (u : Upgrade) : Prop :=
  match u.pc with
  | .fetching => m.HasCode u.current ∧ m.HasImages u.current
  | .keeping imgs =>
    m.HasCode u.current ∧ m.HasImages u.current ∧ (imgs ≠ builtImages → u.retagged = true) ∧
      ∀ img, img ∈ imgs ∨ m.kept img u.current = some u.current
  | .building => m.HasCode u.current ∧ u.HasKept m
  | .checking | .dumping | .zipping | .migrating =>
    m.HasCode u.current ∧ u.HasKept m ∧ m.HasImages u.new
  | .removing | .moving => m.HasImages u.new ∧ u.new ∈ m.migrated
  | .starting => m.HasCode u.new ∧ m.HasImages u.new
  | .leaving imgs =>
    m.HasCode u.current ∧ ∀ img, m.images img = some u.current ∨
      img ∈ imgs ∧ m.kept img u.current = some u.current

/-- What is known at a place of a rollback. -/
def Rollback.Fits (m : Machine) (r : Rollback) : Prop :=
  match r.pc with
  | .unzipping => m.isWhole = true
  | .tagging imgs missing =>
    r.backup.code = some r.backup.version ∧
      (missing = false → ∀ img, img ∈ imgs ∨ m.images img = some r.backup.version)
  | .rebuilding => r.backup.code = some r.backup.version
  | .removing | .moving =>
    r.backup.code = some r.backup.version ∧ m.HasImages r.backup.version
  | .starting => m.HasCode r.backup.version ∧ m.HasImages r.backup.version

/-- An archive has the release that the backup is named after. -/
def Backup.Right (b : Backup) (m : Machine) : Prop :=
  (∀ version, b.code = some version → version = b.version) ∧ b.version ∈ m.migrated

def Process.Fits (m : Machine) : Process → Prop
  | .upgrade u => u.before = ⟨.release u.current, fun _ ↦ some u.current⟩ ∧ u.Fits m
  | .rollback r => r.backup.Right m ∧ r.Fits m

/-- What is known of what is kept, and of what was said. -/
structure Kept (m : Machine) : Prop where
  /-- An image that was kept is of the release that it was kept for. -/
  kept : ∀ img version image, m.kept img version = some image → image = version
  backups : ∀ b ∈ m.backups, b.Right m
  unchanged : ∀ p ∈ m.unchanged, p.2 = p.1
  restored : ∀ p ∈ m.restored, p.2 = ⟨.release p.1.version, fun _ ↦ some p.1.version⟩

structure Inv (m : Machine) : Prop extends Kept m where
  whole : m.process = none → m.isWhole = true
  fits : ∀ p, m.process = some p → p.Fits m

section

variable {m m' : Machine} {e : Event} {u : Upgrade} {r : Rollback} {version : Version}

theorem isWhole_iff : m.isWhole = true ↔ ∃ version, m.HasCode version ∧ m.HasImages version := by
  unfold Machine.isWhole
  constructor
  · intro h
    split at h
    · rename_i version hcode
      rw [Bool.and_eq_true, List.all_eq_true, decide_eq_true_iff] at h
      exact ⟨version, ⟨hcode, h.2⟩, fun img ↦ of_decide_eq_true (h.1 img (mem_builtImages img))⟩
    · cases h
    · cases h
  · rintro ⟨version, ⟨hcode, hmigrated⟩, himages⟩
    rw [hcode]
    rw [Bool.and_eq_true, List.all_eq_true, decide_eq_true_iff]
    exact ⟨fun img _ ↦ decide_eq_true (himages img), hmigrated⟩

theorem snapshot_eq (hcode : m.HasCode version) (himages : m.HasImages version) :
    m.snapshot = ⟨.release version, fun _ ↦ some version⟩ := by
  unfold Machine.snapshot
  rw [hcode.1, funext himages]

/-! ## How a run goes on -/

theorem Kept.proceed (h : Kept m) {p : Process} (hprocess : m.process = some p) (hfits : p.Fits m) :
    Inv m where
  toKept := h
  whole hnone := by
    rw [hprocess] at hnone
    cases hnone
  fits q hq := by
    obtain rfl := Option.some.inj (hprocess.symm.trans hq)
    exact hfits

theorem Kept.move (h : Kept m) (hkept : m'.kept = m.kept) (hbackups : m'.backups = m.backups)
    (hmigrated : m.migrated ⊆ m'.migrated) (hunchanged : m'.unchanged = m.unchanged)
    (hrestored : m'.restored = m.restored) : Kept m' := by
  obtain ⟨hk, hb, hu, hr⟩ := h
  rw [← hkept] at hk
  rw [← hbackups] at hb
  rw [← hunchanged] at hu
  rw [← hrestored] at hr
  exact ⟨hk, fun b hmem ↦ ⟨(hb b hmem).1, hmigrated (hb b hmem).2⟩, hu, hr⟩

theorem Kept.goto (h : Kept m) {p : Process} (hkept : m'.kept = m.kept)
    (hbackups : m'.backups = m.backups) (hmigrated : m.migrated ⊆ m'.migrated)
    (hunchanged : m'.unchanged = m.unchanged) (hrestored : m'.restored = m.restored)
    (hprocess : m'.process = some p) (hfits : p.Fits m') : Inv m' :=
  (h.move hkept hbackups hmigrated hunchanged hrestored).proceed hprocess hfits

/-- The folder, the images and the place are what most commands change. -/
theorem Kept.turn (h : Kept m) {code : Folder} {images : Image → Option Version} {p : Process}
    (hfits : p.Fits { m with code, images, process := some p }) :
    Inv { m with code, images, process := some p } :=
  h.goto rfl rfl (List.Subset.refl _) rfl rfl rfl hfits

theorem Kept.quit (h : Kept m) (hwhole : m.isWhole = true) : Inv m.quit where
  toKept := h.move rfl rfl (List.Subset.refl _) rfl rfl
  whole _ := hwhole
  fits p hp := by cases hp

theorem Kept.leave (h : Kept m) (hbefore : u.before = ⟨.release u.current, fun _ ↦ some u.current⟩)
    (hcode : m.HasCode u.current) {imgs : List Image}
    (himages : ∀ img, m.images img = some u.current ∨
      img ∈ imgs ∧ m.kept img u.current = some u.current) : Inv (m.leave u imgs) := by
  cases imgs with
  | nil =>
    have hall : m.HasImages u.current := fun img ↦
      (himages img).resolve_right fun hno ↦ List.not_mem_nil hno.1
    refine ⟨⟨h.kept, h.backups, fun p hp ↦ ?_, h.restored⟩, fun _ ↦ ?_, fun p hp ↦ by cases hp⟩
    · rcases List.mem_append.mp hp with hp | hp
      · exact h.unchanged p hp
      · obtain rfl := List.mem_singleton.mp hp
        exact (snapshot_eq hcode hall).trans hbefore.symm
    · exact isWhole_iff.mpr ⟨_, hcode, hall⟩
  | cons img imgs =>
    exact h.turn ⟨hbefore, hcode, himages⟩

theorem Kept.stop (h : Kept m) (hbefore : u.before = ⟨.release u.current, fun _ ↦ some u.current⟩)
    (hcode : m.HasCode u.current) (himages : m.HasImages u.current ∨ u.HasKept m) :
    Inv (m.stop u) := by
  refine h.leave hbefore hcode fun img ↦ ?_
  rcases himages with hall | ⟨hretagged, hkept⟩
  · exact .inl (hall img)
  · rw [if_pos hretagged]
    exact .inr ⟨mem_builtImages img, hkept img⟩

theorem Kept.restore (h : Kept m) (hcode : m.HasCode r.backup.version)
    (himages : m.HasImages r.backup.version) : Inv (m.restore r) := by
  refine ⟨⟨h.kept, h.backups, h.unchanged, fun p hp ↦ ?_⟩, fun _ ↦ ?_, fun p hp ↦ by cases hp⟩
  · rcases List.mem_append.mp hp with hp | hp
    · exact h.restored p hp
    · obtain rfl := List.mem_singleton.mp hp
      exact snapshot_eq hcode himages
  · exact isWhole_iff.mpr ⟨_, hcode, himages⟩

/-! ## Upgrades -/

theorem keep_kept (img : Image) (version image : Version) : (m.keep img version image).kept =
    Function.update m.kept img (Function.update (m.kept img) version (some image)) := rfl

theorem kept_keep (img : Image) (version : Version) :
    (m.keep img version version).kept img version = some version := by
  rw [keep_kept, Function.update_self, Function.update_self]

theorem eq_of_kept_keep {img img' : Image} {version version' image : Version}
    (h : (m.keep img version version).kept img' version' = some image) :
    m.kept img' version' = some image ∨ image = version' := by
  by_cases himg : img' = img
  · subst himg
    by_cases hv : version' = version
    · subst hv
      exact .inr (Option.some.inj ((kept_keep _ _).symm.trans h)).symm
    · rw [keep_kept, Function.update_self, Function.update_of_ne hv] at h
      exact .inl h
  · rw [keep_kept, Function.update_of_ne himg] at h
    exact .inl h

theorem kept_keep_of_kept {img img' : Image} {version : Version}
    (h : m.kept img' version = some version) :
    (m.keep img version version).kept img' version = some version := by
  by_cases himg : img' = img
  · rw [himg]
    exact kept_keep _ _
  · rw [keep_kept, Function.update_of_ne himg]
    exact h

theorem Inv.keeping (h : Inv m) {imgs : List Image} (hpc : u.pc = .keeping imgs)
    (hprocess : m.process = some (.upgrade u)) : Inv (u.go m) := by
  obtain ⟨hbefore, hfits⟩ := h.fits _ hprocess
  unfold Upgrade.Fits at hfits
  rw [hpc] at hfits
  obtain ⟨hcode, himages, hretagged, hkept⟩ := hfits
  unfold Upgrade.go
  rw [hpc]
  cases imgs with
  | nil =>
    refine h.toKept.turn ⟨hbefore, hcode, ?_, fun img ↦ ?_⟩
    · exact hretagged (List.cons_ne_nil _ _).symm
    · exact (hkept img).resolve_left List.not_mem_nil
  | cons img imgs =>
    dsimp only
    rw [himages img]
    have hkeep : Kept (m.keep img u.current u.current) :=
      { h with kept := fun _ _ _ hk ↦ (eq_of_kept_keep hk).elim (h.kept _ _ _) id }
    refine hkeep.turn ⟨hbefore, hcode, himages, fun _ ↦ rfl, fun img' ↦ ?_⟩
    rcases hkept img' with hmem | hk
    · rcases List.mem_cons.mp hmem with rfl | hmem
      · exact .inr (kept_keep _ _)
      · exact .inl hmem
    · exact .inr (kept_keep_of_kept hk)

theorem images_of_cons {img : Image} {imgs : List Image} {version : Version}
    (h : ∀ img', m.images img' = some version ∨
      img' ∈ img :: imgs ∧ m.kept img' version = some version)
    (hright : m.images img = some version) (img' : Image) : m.images img' = some version ∨
      img' ∈ imgs ∧ m.kept img' version = some version := by
  rcases h img' with hall | ⟨hmem, hkept⟩
  · exact .inl hall
  · rcases List.mem_cons.mp hmem with rfl | hmem
    · exact .inl hright
    · exact .inr ⟨hmem, hkept⟩

theorem Inv.leaving (h : Inv m) {imgs : List Image} (hpc : u.pc = .leaving imgs)
    (hprocess : m.process = some (.upgrade u)) : Inv (u.go m) := by
  obtain ⟨hbefore, hfits⟩ := h.fits _ hprocess
  unfold Upgrade.Fits at hfits
  rw [hpc] at hfits
  obtain ⟨hcode, himages⟩ := hfits
  unfold Upgrade.go
  rw [hpc]
  cases imgs with
  | nil => exact h.toKept.leave hbefore hcode himages
  | cons img imgs =>
    dsimp only
    cases hk : m.kept img u.current with
    | none =>
      refine h.toKept.leave hbefore hcode fun img' ↦ ?_
      rcases himages img' with hright | ⟨hmem, hkept⟩
      · exact .inl hright
      · rcases List.mem_cons.mp hmem with rfl | hmem
        · cases hk.symm.trans hkept
        · exact .inr ⟨hmem, hkept⟩
    | some image =>
      obtain rfl := h.kept _ _ _ hk
      have htag : Kept (m.tag img (some u.current)) :=
        h.toKept.move rfl rfl (List.Subset.refl _) rfl rfl
      refine htag.leave hbefore hcode fun img' ↦ ?_
      show Function.update m.images img (some u.current) img' = _ ∨ _
      by_cases himg : img' = img
      · rw [himg, Function.update_self]
        exact .inl rfl
      · rw [Function.update_of_ne himg]
        rcases himages img' with hright | ⟨hmem, hkept⟩
        · exact .inl hright
        · exact .inr ⟨(List.mem_cons.mp hmem).resolve_left himg, hkept⟩

theorem Inv.upgradeGo (h : Inv m) (hprocess : m.process = some (.upgrade u)) : Inv (u.go m) := by
  obtain ⟨hbefore, hfits⟩ := h.fits _ hprocess
  have hkeeping : ∀ imgs, u.pc = .keeping imgs → Inv (u.go m) := fun _ hpc ↦ h.keeping hpc hprocess
  have hleaving : ∀ imgs, u.pc = .leaving imgs → Inv (u.go m) := fun _ hpc ↦ h.leaving hpc hprocess
  rw [Upgrade.Fits] at hfits
  rw [Upgrade.go] at hkeeping hleaving ⊢
  cases hpc : u.pc with
  | keeping imgs => simpa only [hpc] using hkeeping imgs hpc
  | leaving imgs => simpa only [hpc] using hleaving imgs hpc
  | fetching =>
    rw [hpc] at hfits
    exact h.toKept.turn ⟨hbefore, hfits.1, hfits.2, fun hno ↦ absurd rfl hno,
      fun img ↦ .inl (mem_builtImages img)⟩
  | building =>
    rw [hpc] at hfits
    exact h.toKept.turn ⟨hbefore, hfits.1, hfits.2, fun img ↦ rfl⟩
  | checking | dumping =>
    rw [hpc] at hfits
    exact h.toKept.turn ⟨hbefore, hfits⟩
  | zipping =>
    rw [hpc] at hfits
    obtain ⟨⟨hcode, hmigrated⟩, hrest⟩ := hfits
    have hright : Backup.Right ⟨u.current, u.stamp, some u.current⟩ m :=
      ⟨fun version hv ↦ (Option.some.inj hv).symm, hmigrated⟩
    have hput : Kept { m with
        backups := putBackup ⟨u.current, u.stamp, some u.current⟩ m.backups } := by
      refine ⟨h.kept, fun b hb ↦ ?_, h.unchanged, h.restored⟩
      rcases List.mem_append.mp hb with hb | hb
      · exact h.backups b ((List.mem_filter.mp hb).1)
      · obtain rfl := List.mem_singleton.mp hb
        exact hright
    have harchived : m.code.archived = some u.current := by
      rw [hcode]
      rfl
    dsimp only
    rw [harchived]
    exact hput.turn ⟨hbefore, ⟨hcode, hmigrated⟩, hrest⟩
  | migrating =>
    rw [hpc] at hfits
    exact h.toKept.goto rfl rfl (List.subset_append_left _ _) rfl rfl rfl
      ⟨hbefore, hfits.2.2, List.mem_append_right _ (List.mem_singleton_self _)⟩
  | removing =>
    rw [hpc] at hfits
    exact h.toKept.turn ⟨hbefore, hfits⟩
  | moving =>
    rw [hpc] at hfits
    exact h.toKept.turn ⟨hbefore, ⟨rfl, hfits.2⟩, hfits.1⟩
  | starting =>
    rw [hpc] at hfits
    exact h.toKept.quit (isWhole_iff.mpr ⟨_, hfits.1, hfits.2⟩)

theorem Inv.upgradeFail (h : Inv m) (hprocess : m.process = some (.upgrade u))
    (hsettled : settled m .fail = true) : Inv (u.fail m) := by
  obtain ⟨hbefore, hfits⟩ := h.fits _ hprocess
  rw [settled, hprocess] at hsettled
  dsimp only at hsettled
  rw [Upgrade.Fits] at hfits
  rw [Upgrade.fail]
  cases hpc : u.pc with
  | fetching =>
    rw [hpc] at hfits
    exact h.toKept.stop hbefore hfits.1 (.inl hfits.2)
  | keeping imgs =>
    rw [hpc] at hfits
    exact h.toKept.stop hbefore hfits.1 (.inl hfits.2.1)
  | building =>
    rw [hpc] at hfits
    exact h.toKept.stop hbefore hfits.1 (.inr hfits.2)
  | checking | dumping | zipping | migrating =>
    rw [hpc] at hfits
    exact h.toKept.stop hbefore hfits.1 (.inr hfits.2.1)
  | removing | moving =>
    rw [hpc] at hsettled
    cases hsettled
  | starting =>
    rw [hpc] at hfits
    exact h.toKept.quit (isWhole_iff.mpr ⟨_, hfits.1, hfits.2⟩)
  | leaving imgs =>
    rw [hpc] at hfits hsettled
    cases imgs with
    | nil => exact h.toKept.leave hbefore hfits.1 hfits.2
    | cons img imgs =>
      exact h.toKept.leave hbefore hfits.1 (images_of_cons hfits.2 (of_decide_eq_true hsettled))

/-! ## Rollbacks -/

theorem Inv.rollbackGo (h : Inv m) (hprocess : m.process = some (.rollback r)) : Inv (r.go m) := by
  obtain ⟨hright, hfits⟩ := h.fits _ hprocess
  rw [Rollback.Fits] at hfits
  rw [Rollback.go]
  cases hpc : r.pc with
  | unzipping =>
    rw [hpc] at hfits
    cases hcode : r.backup.code with
    | none => exact h.toKept.quit hfits
    | some version =>
      refine h.toKept.turn ⟨hright, ?_, fun _ img ↦ ?_⟩
      · rw [hcode, hright.1 version hcode]
      · exact .inl (mem_builtImages img)
  | tagging imgs missing =>
    rw [hpc] at hfits
    obtain ⟨hcode, himages⟩ := hfits
    cases imgs with
    | nil =>
      cases missing with
      | true => exact h.toKept.turn ⟨hright, hcode⟩
      | false =>
        refine h.toKept.turn ⟨hright, hcode, fun img ↦ ?_⟩
        exact (himages rfl img).resolve_left List.not_mem_nil
    | cons img imgs =>
      dsimp only
      cases hk : m.kept img r.backup.version with
      | none =>
        refine h.toKept.turn ⟨hright, hcode, fun hno ↦ ?_⟩
        cases hno
      | some image =>
        obtain rfl := h.kept _ _ _ hk
        refine h.toKept.turn ⟨hright, hcode, fun hno img' ↦ ?_⟩
        show img' ∈ imgs ∨ Function.update m.images img _ img' = _
        by_cases himg : img' = img
        · rw [himg, Function.update_self]
          exact .inr rfl
        · rw [Function.update_of_ne himg]
          refine (himages hno img').imp_left fun hmem ↦ ?_
          exact (List.mem_cons.mp hmem).resolve_left himg
  | rebuilding =>
    rw [hpc] at hfits
    exact h.toKept.turn ⟨hright, hfits, fun _ ↦ hfits⟩
  | removing =>
    rw [hpc] at hfits
    exact h.toKept.turn ⟨hright, hfits⟩
  | moving =>
    rw [hpc] at hfits
    obtain ⟨hcode, himages⟩ := hfits
    dsimp only
    rw [hcode]
    exact h.toKept.turn ⟨hright, ⟨rfl, hright.2⟩, himages⟩
  | starting =>
    rw [hpc] at hfits
    exact h.toKept.restore hfits.1 hfits.2

theorem Inv.rollbackFail (h : Inv m) (hprocess : m.process = some (.rollback r))
    (hsettled : settled m .fail = true) : Inv (r.fail m) := by
  obtain ⟨hright, hfits⟩ := h.fits _ hprocess
  rw [settled, hprocess] at hsettled
  dsimp only at hsettled
  rw [Rollback.Fits] at hfits
  rw [Rollback.fail]
  cases hpc : r.pc with
  | starting =>
    rw [hpc] at hfits
    exact h.toKept.restore hfits.1 hfits.2
  | unzipping | tagging | rebuilding | removing | moving =>
    rw [hpc] at hsettled
    exact h.toKept.quit hsettled

/-! ## Runs -/

theorem Inv.built (h : Inv m) {p : Process} (hprocess : m.process = some p) {version : Version}
    (hbuilding : p.building = some version) (img : Image) : Inv (m.tag img (some version)) := by
  have hfits := h.fits _ hprocess
  refine h.toKept.goto rfl rfl (List.Subset.refl _) rfl rfl hprocess ?_
  cases p with
  | upgrade u =>
    obtain ⟨hbefore, hfits⟩ := hfits
    refine ⟨hbefore, ?_⟩
    rw [Process.building] at hbuilding
    split at hbuilding
    · rename_i hpc
      rw [Upgrade.Fits, hpc] at hfits ⊢
      exact hfits
    · cases hbuilding
  | rollback r =>
    obtain ⟨hright, hfits⟩ := hfits
    refine ⟨hright, ?_⟩
    rw [Process.building] at hbuilding
    split at hbuilding
    · rename_i hpc
      rw [Rollback.Fits, hpc] at hfits ⊢
      exact hfits
    · cases hbuilding

theorem Inv.partly (h : Inv m) {p : Process} (hprocess : m.process = some p)
    (hswitching : p.isSwitching = true) (version : Version) :
    Inv { m with code := .part version } := by
  have hfits := h.fits _ hprocess
  refine h.toKept.goto rfl rfl (List.Subset.refl _) rfl rfl hprocess ?_
  cases p with
  | upgrade u =>
    obtain ⟨hbefore, hfits⟩ := hfits
    refine ⟨hbefore, ?_⟩
    rw [Process.isSwitching, Bool.or_eq_true, decide_eq_true_iff, decide_eq_true_iff] at hswitching
    rcases hswitching with hpc | hpc
    · rw [Upgrade.Fits, hpc] at hfits ⊢
      exact hfits
    · rw [Upgrade.Fits, hpc] at hfits ⊢
      exact hfits
  | rollback r =>
    obtain ⟨hright, hfits⟩ := hfits
    refine ⟨hright, ?_⟩
    rw [Process.isSwitching, Bool.or_eq_true, decide_eq_true_iff, decide_eq_true_iff] at hswitching
    rcases hswitching with hpc | hpc
    · rw [Rollback.Fits, hpc] at hfits ⊢
      exact hfits
    · rw [Rollback.Fits, hpc] at hfits ⊢
      exact hfits

theorem Inv.miss (h : Inv m) {p : Process} (hprocess : m.process = some p)
    (hmiss : miss m p = some m') (hsettled : settled m .miss = true) : Inv m' := by
  have hfits := h.fits _ hprocess
  rw [settled, hprocess] at hsettled
  cases p with
  | upgrade u =>
    obtain ⟨hbefore, hfits⟩ := hfits
    rw [Script.miss] at hmiss
    dsimp only at hmiss hsettled
    split at hmiss
    · rename_i hpc
      rw [hpc] at hsettled
      cases hsettled
    · rename_i img imgs hpc
      obtain rfl := Option.some.inj hmiss
      rw [hpc] at hsettled
      rw [Upgrade.Fits, hpc] at hfits
      exact h.toKept.leave hbefore hfits.1 (images_of_cons hfits.2 (of_decide_eq_true hsettled))
    · cases hmiss
  | rollback r =>
    obtain ⟨hright, hfits⟩ := hfits
    rw [Script.miss] at hmiss
    split at hmiss
    · rename_i hpc
      obtain rfl := Option.some.inj hmiss
      rw [Rollback.Fits, hpc] at hfits
      refine h.toKept.turn ⟨hright, hfits.1, fun hno ↦ ?_⟩
      cases hno
    · cases hmiss

/-- A step that meets the condition keeps the invariant. -/
theorem Inv.step (h : Inv m) (hs : step m e = some m') (hsettled : Settled m e m') : Inv m' := by
  cases e with
  | upgrade new stamp =>
    simp only [Script.step] at hs
    split at hs
    · rename_i hstart
      obtain rfl := Option.some.inj hs
      obtain ⟨version, hcode, himages⟩ :=
        isWhole_iff.mp (h.whole (Option.isNone_iff_eq_none.mp hstart.1))
      have hversion : m.code.version = version := by
        rw [hcode.1]
        rfl
      refine h.toKept.turn ⟨?_, ?_, ?_⟩
      · show m.snapshot = ⟨.release m.code.version, fun _ ↦ some m.code.version⟩
        rw [hversion]
        exact snapshot_eq hcode himages
      · show m.HasCode m.code.version
        rw [hversion]
        exact hcode
      · show m.HasImages m.code.version
        rw [hversion]
        exact himages
    · cases hs
  | rollback version stamp =>
    simp only [Script.step] at hs
    split at hs
    · rename_i hstart
      obtain ⟨b, hb, rfl⟩ := Option.map_eq_some_iff.mp hs
      exact h.toKept.turn ⟨h.backups b (List.mem_of_find?_eq_some hb),
          h.whole (Option.isNone_iff_eq_none.mp hstart)⟩
    · cases hs
  | go =>
    obtain ⟨p, hprocess, rfl⟩ := Option.map_eq_some_iff.mp hs
    cases p with
    | upgrade u => exact h.upgradeGo hprocess
    | rollback r => exact h.rollbackGo hprocess
  | fail =>
    obtain ⟨p, hprocess, rfl⟩ := Option.map_eq_some_iff.mp hs
    cases p with
    | upgrade u => exact h.upgradeFail hprocess hsettled
    | rollback r => exact h.rollbackFail hprocess hsettled
  | miss =>
    obtain ⟨p, hprocess, hmiss⟩ := Option.bind_eq_some_iff.mp hs
    exact h.miss hprocess hmiss hsettled
  | built img =>
    obtain ⟨version, hbuilding, rfl⟩ := Option.map_eq_some_iff.mp hs
    obtain ⟨p, hprocess, hbuilding⟩ := Option.bind_eq_some_iff.mp hbuilding
    exact h.built hprocess hbuilding img
  | partly version =>
    obtain ⟨p, hp, rfl⟩ := Option.map_eq_some_iff.mp hs
    obtain ⟨hprocess, hswitching⟩ := Option.filter_eq_some_iff.mp hp
    exact h.partly hprocess hswitching version
  | kill =>
    obtain ⟨p, hprocess, rfl⟩ := Option.map_eq_some_iff.mp hs
    exact h.toKept.quit hsettled

theorem Machine.Fresh.inv (h : m.Fresh) : Inv m where
  kept img version image hk := by
    rw [h.kept] at hk
    cases hk
  backups b hb := by
    rw [h.backups] at hb
    cases hb
  unchanged p hp := by
    rw [h.unchanged] at hp
    cases hp
  restored p hp := by
    rw [h.restored] at hp
    cases hp
  whole _ := h.whole
  fits p hp := by
    rw [h.process] at hp
    cases hp

/-- When the steps meet the condition, the host has one release whenever no run is going on, and
what the script says of it is right. -/
theorem upgrades_leave_runnable {start : Machine} (hfresh : start.Fresh) {es : List Event}
    (hrun : Run step Settled start es m) : m.Runnable := by
  have hinv : Inv m := hrun.invariant hfresh.inv fun _ _ _ h hs hsettled ↦ h.step hs hsettled
  exact ⟨fun hnone ↦ hinv.whole (Option.isNone_iff_eq_none.mp hnone), hinv.unchanged,
    hinv.restored⟩

end

/-! ## A host with one release -/

def running151 : Machine where
  code := .release "1.5.1"
  images _ := some "1.5.1"
  migrated := ["1.5.1"]

theorem running151_fresh : running151.Fresh :=
  ⟨by decide +kernel, fun _ _ ↦ rfl, rfl, rfl, rfl, rfl⟩

def untilBuilt (stamp : String) : List Event :=
  [.upgrade "1.5.2" stamp, .go, .go, .go, .go, .go, .built .backend]

def upAndDown : List Event :=
  untilBuilt "2026-01-05-1000" ++ [.fail, .go, .go, .go] ++
    untilBuilt "2026-01-05-1010" ++ List.replicate 8 .go ++
    [.rollback "1.5.1" "2026-01-05-1010"] ++ List.replicate 8 .go

theorem upgrades_leave_runnable_up_and_down :
    ∃ m, Run step Settled running151 upAndDown m ∧ m.Runnable ∧ m.code = .release "1.5.1" := by
  have hview : (execIf step settled running151 upAndDown).map (·.code) =
    some (.release "1.5.1") := by decide +kernel
  obtain ⟨m, hrun, hcode⟩ := exists_run hview
  exact ⟨m, hrun, upgrades_leave_runnable running151_fresh hrun, hcode⟩

def notMoved : List Event :=
  untilBuilt "2026-01-05-1000" ++ List.replicate 6 .go ++ [.fail, .go, .go, .go]

def killedBuild : List Event :=
  untilBuilt "2026-01-05-1000" ++ [.kill] ++
    untilBuilt "2026-01-05-1010" ++ List.replicate 4 .go ++ [.fail, .go, .go, .go] ++
    [.rollback "1.5.1" "2026-01-05-1010"] ++ List.replicate 8 .go

/-- A host is left without its folder and told that nothing was changed, and a rollback puts back
the images of the release that it is to undo. -/
theorem upgrades_do_not_leave_runnable :
    (¬ ∀ es m, Run step free running151 es m → m.process.isNone → m.isWhole = true) ∧
    (¬ ∀ es m, Run step free running151 es m → ∀ p ∈ m.unchanged, p.2 = p.1) ∧
    ¬ ∀ es m, Run step free running151 es m →
      ∀ p ∈ m.restored, p.2 = ⟨.release p.1.version, fun _ ↦ some p.1.version⟩ := by
  refine ⟨fun hall ↦ ?_, fun hall ↦ ?_, fun hall ↦ ?_⟩
  · have hview : (exec step running151 notMoved).map (fun m ↦ m.process.isNone && !m.isWhole) =
        some true := by decide +kernel
    obtain ⟨m, hrun, hbroken⟩ := exists_run_free hview
    rw [Bool.and_eq_true, Bool.not_eq_true'] at hbroken
    have hwhole := hall _ m hrun hbroken.1
    rw [hbroken.2] at hwhole
    cases hwhole
  · have hview : (exec step running151 notMoved).map (fun m ↦
        m.unchanged.any fun p ↦ p.2.code ≠ p.1.code) = some true := by decide +kernel
    obtain ⟨m, hrun, hsaid⟩ := exists_run_free hview
    obtain ⟨p, hp, hne⟩ := List.any_eq_true.mp hsaid
    exact of_decide_eq_true hne (congrArg Snapshot.code (hall _ m hrun p hp))
  · have hview : (exec step running151 killedBuild).map (fun m ↦
        m.restored.any fun p ↦ p.2.images .backend ≠ some p.1.version) = some true := by
      decide +kernel
    obtain ⟨m, hrun, hmixed⟩ := exists_run_free hview
    obtain ⟨p, hp, hne⟩ := List.any_eq_true.mp hmixed
    refine of_decide_eq_true hne ?_
    rw [hall _ m hrun p hp]

end Shellius.Updates.Script
