import Mathlib.Data.Char
import Mathlib.Data.List.Lex
import Shellius.Collector.Updater

/-!
# What the updater lets through

A script is compared by the version in the offer, which nobody has signed, so that an older script
goes through under a newer name; and when the commands that compare do not work, nothing is
compared.  A collector that does not work stays when the process dies before it has been put back,
or when putting it back fails.

The proof follows a property of the collector that an installation keeps, through the run that
installs.
-/

namespace Shellius.Collector.Updater

open Lib

/-! ## The condition -/

/-- The collector works, or the copy that was kept does not either. -/
def sound (t : Tools) (h : Host) : Bool :=
  h.isWorking t || !h.previous.any fun f ↦ t.works f.content

/-- A signed script that is served has the version that was offered; the commands that compare the
versions do not fail; and with a collector in place that does not work, when the kept one did, the
process does not die, the account is found, and the kept one can be put back. -/
def careful (t : Tools) (h : Host) : Event → Bool
  | .script bytes =>
    match h.run with
    | some (.fetching offer) =>
      !t.verify offer.signature bytes || versionOf bytes = offer.version
    | _ => true
  | .fail =>
    match h.run with
    | some (.comparing _) => h.collector.isNone
    | some .restoring => sound t h
    | _ => true
  | .noAccount | .kill =>
    match h.run with
    | some .testing | some .restoring => sound t h
    | _ => true
  | .start | .offer _ | .write .. | .go => true

def Careful (t : Tools) (h : Host) (e : Event) (_ : Host) : Prop := careful t h e = true

/-! ## The run that installs -/

/-- An offer is newer than what is at the path, as far as that has a version. -/
structure Compared (t : Tools) (content : Option Bytes) (offer : Offer) : Prop where
  version : offer.version ≠ []
  newer : ∀ bytes, content = some bytes →
    versionOf bytes = [] ∨ t.versionLe offer.version (versionOf bytes) = false

/-- A script has come through. -/
structure Passed (t : Tools) (content : Option Bytes) (offer : Offer) (script : Bytes) : Prop where
  compared : Compared t content offer
  signed : t.verify offer.signature script = true
  version : versionOf script = offer.version

/-- What is known at a place of a run: `Good` is a property of what is at the path, and `working`
says that there was a collector that works. -/
def Fits (t : Tools) (Good : Option Bytes → Prop) (working : Prop) (h : Host) : Pc → Prop
  | .preflight | .asking => True
  | .comparing offer => offer.version ≠ []
  | .fetching offer => Compared t h.content offer
  | .verifying offer script =>
    Compared t h.content offer ∧
      (t.verify offer.signature script = true → versionOf script = offer.version)
  | .staging script => ∃ offer, Passed t h.content offer script
  | .keeping => ∃ offer script, h.staged = some ⟨script, true⟩ ∧ Passed t h.content offer script
  | .swapping =>
    (∃ offer script, h.staged = some ⟨script, true⟩ ∧ Passed t h.content offer script) ∧
      h.previous = h.collector
  | .testing | .restoring =>
    Good (h.previous.map (·.content)) ∧ h.previous.all (·.executable) = true ∧
      (working → h.previous.any (fun f ↦ t.works f.content) = true)

/-- The new collector is in place, and not yet trusted. -/
def Pc.isTrial : Pc → Bool
  | .testing | .restoring => true
  | _ => false

structure Inv (t : Tools) (Good : Option Bytes → Prop) (working : Prop) (h : Host) : Prop where
  good : Good h.content
  executable : h.collector.all (·.executable) = true
  /-- A copy is only ever taken of a collector that is there. -/
  kept : h.previous ≠ none → h.collector ≠ none
  works : working → h.run.all (!·.isTrial) = true → h.isWorking t = true
  fits : ∀ pc, h.run = some pc → Fits t Good working h pc

section

variable {t : Tools} {Good : Option Bytes → Prop} {working : Prop} {h h' : Host} {e : Event}
  {pc : Pc}

theorem Inv.goto (hinv : Inv t Good working h) (htrial : h.run.all (!·.isTrial) = true)
    (hfits : Fits t Good working h pc) : Inv t Good working (h.goto pc) where
  good := hinv.good
  executable := hinv.executable
  kept := hinv.kept
  works hw _ := hinv.works hw htrial
  fits pc' hpc := by
    obtain rfl := Option.some.inj hpc
    cases pc <;> exact hfits

theorem Inv.exit (hinv : Inv t Good working h) (hworks : working → h.isWorking t = true) :
    Inv t Good working h.exit where
  good := hinv.good
  executable := hinv.executable
  kept := hinv.kept
  works hw _ := hworks hw
  fits pc hpc := by cases hpc

theorem Inv.kill (hinv : Inv t Good working h) (hworks : working → h.isWorking t = true) :
    Inv t Good working { h with run := none } where
  good := hinv.good
  executable := hinv.executable
  kept := hinv.kept
  works hw _ := hworks hw
  fits pc hpc := by cases hpc

theorem Inv.filter_collector (hinv : Inv t Good working h) :
    h.collector.filter (·.executable) = h.collector := by
  have hexec := hinv.executable
  cases hc : h.collector with
  | none => rfl
  | some f =>
    rw [hc] at hexec
    exact if_pos hexec

theorem works_of_sound (hfits : Fits t Good working h pc) (htrial : pc.isTrial = true)
    (hsound : sound t h = true) : working → h.isWorking t = true := by
  intro hw
  have hkept : h.previous.any (fun f ↦ t.works f.content) = true := by
    cases pc with
    | testing | restoring => exact hfits.2.2 hw
    | preflight | asking | comparing | fetching | verifying | staging | keeping | swapping =>
      cases htrial
  rw [sound, hkept, Bool.not_true, Bool.or_false] at hsound
  exact hsound

theorem Inv.compare (hinv : Inv t Good working h) {offer : Offer}
    (hrun : h.run = some (.comparing offer)) : Inv t Good working (compare t h offer) := by
  have htrial : h.run.all (!·.isTrial) = true := by
    rw [hrun]
    rfl
  have hversion : offer.version ≠ [] := hinv.fits _ hrun
  have hexit := hinv.exit fun hw ↦ hinv.works hw htrial
  unfold Updater.compare
  rw [hinv.filter_collector]
  split
  · rename_i f hf
    have hcontent : h.content = some f.content := by
      rw [Host.content, hf]
      rfl
    dsimp only
    split
    · exact hexit
    · split
      · exact hexit
      · rename_i hle
        refine hinv.goto htrial ⟨hversion, fun bytes hbytes ↦ ?_⟩
        obtain rfl := Option.some.inj (hcontent.symm.trans hbytes)
        by_cases hnone : versionOf f.content = []
        · exact .inl hnone
        · exact .inr (eq_false_of_ne_true fun h ↦ hle ⟨hnone, h⟩)
  · rename_i hnone
    refine hinv.goto htrial ⟨hversion, fun bytes hbytes ↦ ?_⟩
    rw [Host.content, hnone] at hbytes
    cases hbytes

theorem Inv.rollBack (hinv : Inv t Good working h) (hrun : h.run = some .testing) :
    Inv t Good working (rollBack h) := by
  have hfits := hinv.fits _ hrun
  obtain ⟨hgood, hexec, hworks⟩ := hfits
  unfold Updater.rollBack
  split
  · refine ⟨hinv.good, hinv.executable, hinv.kept, fun _ htrial ↦ ?_, fun pc hpc ↦ ?_⟩
    · cases htrial
    · obtain rfl := Option.some.inj hpc
      exact ⟨hgood, hexec, hworks⟩
  · rename_i hno
    refine hinv.exit fun hw ↦ ?_
    -- the copy that works can be executed
    have hany := hworks hw
    cases hp : h.previous with
    | none =>
      rw [hp] at hany
      cases hany
    | some f =>
      rw [hp] at hexec hno
      exact absurd hexec hno

theorem Inv.go (hinv : Inv t Good working h)
    (hinstall : ∀ content offer script, Good content → Passed t content offer script →
      Good (some script))
    (hrun : h.run = some pc) (hgo : go t h pc = some h') : Inv t Good working h' := by
  have hfits := hinv.fits pc hrun
  have hworks : pc.isTrial = false → working → h.isWorking t = true := by
    intro htrial hw
    refine hinv.works hw ?_
    rw [hrun, Option.all_some, htrial, Bool.not_false]
  have hall : pc.isTrial = false → h.run.all (!·.isTrial) = true := by
    intro htrial
    rw [hrun, Option.all_some, htrial, Bool.not_false]
  cases pc with
  | preflight =>
    obtain rfl := Option.some.inj hgo
    exact hinv.goto (hall rfl) trivial
  | asking => cases hgo
  | comparing offer =>
    obtain rfl := Option.some.inj hgo
    exact hinv.compare hrun
  | fetching offer => cases hgo
  | verifying offer script =>
    simp only [Updater.go] at hgo
    split at hgo
    · rename_i hverified
      obtain rfl := Option.some.inj hgo
      obtain ⟨hcompared, hversion⟩ := hfits
      rw [Bool.and_eq_true, verified, Bool.and_eq_true, Bool.and_eq_true] at hverified
      have hsigned := hverified.1.1.2
      exact hinv.goto (hall rfl) ⟨offer, hcompared, hsigned, hversion hsigned⟩
    · obtain rfl := Option.some.inj hgo
      exact hinv.exit (hworks rfl)
  | staging script =>
    obtain rfl := Option.some.inj hgo
    obtain ⟨offer, hpassed⟩ := hfits
    refine ⟨hinv.good, hinv.executable, hinv.kept, fun hw _ ↦ hworks rfl hw, fun pc hpc ↦ ?_⟩
    obtain rfl := Option.some.inj hpc
    exact ⟨offer, script, rfl, hpassed⟩
  | keeping =>
    simp only [Updater.go, hinv.filter_collector] at hgo
    split at hgo
    · rename_i f hf
      obtain rfl := Option.some.inj hgo
      refine ⟨hinv.good, hinv.executable, fun _ hno ↦ ?_, fun hw _ ↦ hworks rfl hw,
        fun pc hpc ↦ ?_⟩
      · cases hf.symm.trans hno
      · obtain rfl := Option.some.inj hpc
        exact ⟨hfits, hf.symm⟩
    · rename_i hnone
      obtain rfl := Option.some.inj hgo
      have hprevious : h.previous = none := by
        by_contra hno
        exact hinv.kept hno hnone
      exact hinv.goto (hall rfl) ⟨hfits, hprevious.trans hnone.symm⟩
  | swapping =>
    obtain rfl := Option.some.inj hgo
    obtain ⟨⟨offer, script, hstaged, hpassed⟩, hprevious⟩ := hfits
    refine ⟨?_, ?_, fun _ hno ↦ ?_, fun _ htrial ↦ ?_, fun pc hpc ↦ ?_⟩
    · show Good (h.staged.map (·.content))
      rw [hstaged]
      exact hinstall _ offer script hinv.good hpassed
    · show h.staged.all (·.executable) = true
      rw [hstaged]
      rfl
    · cases hstaged.symm.trans hno
    · cases htrial
    · obtain rfl := Option.some.inj hpc
      show Good (h.previous.map (·.content)) ∧ h.previous.all (·.executable) = true ∧
        (working → h.previous.any (fun f ↦ t.works f.content) = true)
      rw [hprevious]
      refine ⟨hinv.good, hinv.executable, fun hw ↦ ?_⟩
      obtain ⟨f, hf, hboth⟩ := Option.any_eq_true _ _ |>.mp (hworks rfl hw)
      rw [hf, Option.any_some]
      exact (Bool.and_eq_true_iff.mp hboth).2
  | testing =>
    simp only [Updater.go] at hgo
    split at hgo
    · rename_i hsmoke
      obtain rfl := Option.some.inj hgo
      exact hinv.exit fun _ ↦ hsmoke
    · obtain rfl := Option.some.inj hgo
      exact hinv.rollBack hrun
  | restoring =>
    obtain rfl := Option.some.inj hgo
    obtain ⟨hgood, -, hkept⟩ := hfits
    refine ⟨?_, ?_, fun hno ↦ absurd rfl hno, fun hw _ ↦ ?_, fun pc hpc ↦ by cases hpc⟩
    · show Good ((h.previous.map fun f ↦ { f with executable := true }).map (·.content))
      rw [Option.map_map]
      exact hgood
    · show (h.previous.map fun f ↦ { f with executable := true }).all (·.executable) = true
      cases h.previous with
      | none => rfl
      | some f => rfl
    · show (h.previous.map fun f ↦ { f with executable := true }).any
        (fun f ↦ f.executable && t.works f.content) = true
      have hany := hkept hw
      cases hp : h.previous with
      | none =>
        rw [hp] at hany
        cases hany
      | some f =>
        rw [hp] at hany
        exact hany

theorem Inv.failed (hinv : Inv t Good working h) (hrun : h.run = some pc)
    (hcareful : careful t h .fail = true) : Inv t Good working (failed h pc) := by
  have hfits := hinv.fits pc hrun
  have hexit : pc.isTrial = false → Inv t Good working h.exit := by
    intro htrial
    refine hinv.exit fun hw ↦ hinv.works hw ?_
    rw [hrun, Option.all_some, htrial, Bool.not_false]
  rw [careful, hrun] at hcareful
  cases pc with
  | comparing offer =>
    refine hinv.goto ?_ ⟨hfits, fun bytes hbytes ↦ ?_⟩
    · rw [hrun]
      rfl
    · rw [Host.content, Option.isNone_iff_eq_none.mp hcareful] at hbytes
      cases hbytes
  | testing => exact hinv.rollBack hrun
  | restoring => exact hinv.exit (works_of_sound hfits rfl hcareful)
  | preflight | asking | fetching | verifying | staging | keeping | swapping => exact hexit rfl

/-- A step that meets the condition keeps the invariant. -/
theorem Inv.step (hinv : Inv t Good working h)
    (hinstall : ∀ content offer script, Good content → Passed t content offer script →
      Good (some script))
    (hs : step t h e = some h') (hcareful : Careful t h e h') : Inv t Good working h' := by
  cases e with
  | start =>
    simp only [Updater.step] at hs
    split at hs
    · rename_i hrun
      obtain rfl := Option.some.inj hs
      refine hinv.goto ?_ trivial
      rw [hrun]
      rfl
    · cases hs
  | offer text =>
    simp only [Updater.step] at hs
    split at hs
    · rename_i hrun
      have htrial : h.run.all (!·.isTrial) = true := by
        rw [hrun]
        rfl
      split at hs
      · rename_i offer hread
        obtain rfl := Option.some.inj hs
        refine hinv.goto htrial fun hno ↦ ?_
        simp only [readOffer] at hread
        split at hread
        · cases hread
        · rename_i hversion
          split at hread
          · cases hread
          · rw [← Option.some.inj hread] at hno
            exact hversion hno
      · obtain rfl := Option.some.inj hs
        exact hinv.exit fun hw ↦ hinv.works hw htrial
    · cases hs
  | script bytes =>
    simp only [Updater.step] at hs
    split at hs
    · rename_i offer hrun
      have htrial : h.run.all (!·.isTrial) = true := by
        rw [hrun]
        rfl
      split at hs
      · obtain rfl := Option.some.inj hs
        exact hinv.exit fun hw ↦ hinv.works hw htrial
      · obtain rfl := Option.some.inj hs
        refine hinv.goto htrial ⟨hinv.fits _ hrun, fun hsigned ↦ ?_⟩
        rw [Careful, careful, hrun] at hcareful
        dsimp only at hcareful
        rw [hsigned, Bool.not_true, Bool.false_or, decide_eq_true_iff] at hcareful
        exact hcareful
    · cases hs
  | write n executable =>
    simp only [Updater.step] at hs
    split at hs
    · rename_i script hrun
      obtain rfl := Option.some.inj hs
      refine ⟨hinv.good, hinv.executable, hinv.kept, hinv.works, fun pc hpc ↦ ?_⟩
      obtain rfl := Option.some.inj (hrun.symm.trans hpc)
      exact hinv.fits _ hrun
    · rename_i hrun
      rw [hinv.filter_collector] at hs
      obtain ⟨f, hf, rfl⟩ := Option.map_eq_some_iff.mp hs
      refine ⟨hinv.good, hinv.executable, fun _ hno ↦ ?_, hinv.works, fun pc hpc ↦ ?_⟩
      · cases hf.symm.trans hno
      · obtain rfl := Option.some.inj (hrun.symm.trans hpc)
        exact hinv.fits _ hrun
    · cases hs
  | go =>
    obtain ⟨pc, hrun, hgo⟩ := Option.bind_eq_some_iff.mp hs
    exact hinv.go hinstall hrun hgo
  | fail =>
    obtain ⟨pc, hrun, rfl⟩ := Option.map_eq_some_iff.mp hs
    exact hinv.failed hrun hcareful
  | noAccount =>
    simp only [Updater.step] at hs
    split at hs
    · rename_i hrun
      obtain rfl := Option.some.inj hs
      rw [Careful, careful, hrun] at hcareful
      exact hinv.exit (works_of_sound (hinv.fits _ hrun) rfl hcareful)
    · cases hs
  | kill =>
    obtain ⟨pc, hrun, rfl⟩ := Option.map_eq_some_iff.mp hs
    refine hinv.kill ?_
    by_cases htrial : pc.isTrial = true
    · rw [Careful, careful, hrun] at hcareful
      refine works_of_sound (hinv.fits _ hrun) htrial ?_
      cases pc with
      | testing | restoring => exact hcareful
      | preflight | asking | comparing | fetching | verifying | staging | keeping | swapping =>
        cases htrial
    · intro hw
      refine hinv.works hw ?_
      rw [hrun, Option.all_some, eq_false_of_ne_true htrial, Bool.not_false]

end

/-! ## Runs -/

/-- What is at the path was there before the first run, or has been signed. -/
def Genuine (t : Tools) (start : Host) (content : Option Bytes) : Prop :=
  (∀ bytes, content = some bytes →
    start.content = some bytes ∨ ∃ signature, t.verify signature bytes = true) ∧
  (start.content ≠ none → content ≠ none)

/-- What is at the path has a version, which is not older than `version`. -/
def AtLeast (t : Tools) (version : List Char) (content : Option Bytes) : Prop :=
  ∃ bytes, content = some bytes ∧ versionOf bytes ≠ [] ∧
    t.versionLe version (versionOf bytes) = true

section

variable {t : Tools} {start h h' : Host} {es fs : List Event} {content : Option Bytes}
  {offer : Offer} {script : Bytes}

theorem genuine_of_passed (hpassed : Passed t content offer script) :
    Genuine t start (some script) := by
  refine ⟨fun bytes hbytes ↦ .inr ⟨offer.signature, ?_⟩, fun _ ↦ Option.some_ne_none _⟩
  rw [← Option.some.inj hbytes]
  exact hpassed.signed

theorem atLeast_of_passed (htotal : ∀ a b, t.versionLe a b = true ∨ t.versionLe b a = true)
    (htrans : ∀ a b c, t.versionLe a b = true → t.versionLe b c = true → t.versionLe a c = true)
    {version : List Char} (hcontent : AtLeast t version content)
    (hpassed : Passed t content offer script) : AtLeast t version (some script) := by
  obtain ⟨bytes, hbytes, hversion, hle⟩ := hcontent
  refine ⟨script, rfl, ?_, ?_⟩
  · rw [hpassed.version]
    exact hpassed.compared.version
  · rw [hpassed.version]
    rcases hpassed.compared.newer bytes hbytes with hnone | hnot
    · exact absurd hnone hversion
    · refine htrans _ _ _ hle ((htotal _ _).resolve_right fun h ↦ ?_)
      rw [hnot] at h
      cases h

theorem Host.Untouched.inv (huntouched : start.Untouched)
    (hexec : start.collector.all (·.executable) = true) :
    Inv t (Genuine t start) (start.isWorking t = true) start where
  good := ⟨fun _ ↦ .inl, id⟩
  executable := hexec
  kept hno := absurd huntouched.previous hno
  works hw _ := hw
  fits pc hpc := by
    rw [huntouched.run] at hpc
    cases hpc

/-- When the steps meet the condition, only what is signed and newer is put in place, and a
collector that works stays or is replaced by one that does. -/
theorem updates_are_safe (htotal : ∀ a b, t.versionLe a b = true ∨ t.versionLe b a = true)
    (htrans : ∀ a b c, t.versionLe a b = true → t.versionLe b c = true → t.versionLe a c = true)
    (huntouched : start.Untouched) (hexec : start.collector.all (·.executable) = true)
    (hrun : Run (step t) (Careful t) start es h) :
    start.Safe t h ∧ ∀ fs h', Run (step t) (Careful t) h fs h' → NotOlder t h h' := by
  have hinv : Inv t (Genuine t start) (start.isWorking t = true) h :=
    hrun.invariant (huntouched.inv hexec) fun _ _ _ hinv hs hcareful ↦
      hinv.step (fun _ _ _ _ ↦ genuine_of_passed) hs hcareful
  constructor
  · refine ⟨hinv.good.1, hinv.good.2, fun hw hidle ↦ hinv.works hw ?_⟩
    rw [hidle]
    rfl
  · intro fs h' hrun' hidle _ hversion
    have hstart : Inv t (AtLeast t h.version) False h := by
      refine ⟨?_, hinv.executable, hinv.kept, fun hw ↦ hw.elim, fun pc hpc ↦ ?_⟩
      · cases hc : h.content with
        | none =>
          rw [Host.version, hc] at hversion
          exact absurd rfl hversion
        | some bytes =>
          have hv : h.version = versionOf bytes := by
            rw [Host.version, hc]
            rfl
          rw [hv] at hversion ⊢
          exact ⟨bytes, rfl, hversion, (htotal _ _).elim id id⟩
      · rw [hidle] at hpc
        cases hpc
    have hend : Inv t (AtLeast t h.version) False h' :=
      hrun'.invariant hstart fun _ _ _ hinv hs hcareful ↦
        hinv.step (fun _ _ _ ↦ atLeast_of_passed htotal htrans) hs hcareful
    obtain ⟨bytes, hbytes, hnone, hle⟩ := hend.good
    have hv : h'.version = versionOf bytes := by
      rw [Host.version, hbytes]
      rfl
    rw [hv]
    exact ⟨hnone, hle⟩

end

/-! ## Three releases -/

/-- A release that is signed: the script, its digest, and its signature. -/
structure Release where
  script : Bytes
  sha256 : List Char
  signature : List Char

def release10 : Release where
  script := "#!/bin/sh\nVERSION=\x221.0\x22\n".toList
  sha256 := "9365f3a854543744f441fda89edaf256443bb57de2a3f0ae6daef287507dcdac".toList
  signature := "c2lnIDEuMA==".toList

def release11 : Release where
  script := "#!/bin/sh\nVERSION=\x221.1\x22\n".toList
  sha256 := "89be4ad843386d0ea023a762e8578c8aed232328a993f7e81df1d566026c0a48".toList
  signature := "c2lnIDEuMQ==".toList

def release12 : Release where
  script := "#!/bin/sh\nVERSION=\x221.2\x22\nexit 1\n".toList
  sha256 := "528e486187725edf985833b8448fff97cb0c37f325778e10c948674fe85b653e".toList
  signature := "c2lnIDEuMg==".toList

def threeReleases : Tools where
  sha256sum script :=
    (([release10, release11, release12].find? (·.script = script)).map (·.sha256)).getD []
  verify signature script :=
    [release10, release11, release12].any fun r ↦ r.signature = signature && r.script = script
  versionLe a b := decide (a ≤ b)
  works script := script ≠ release12.script

def installed (r : Release) : Host where
  collector := some ⟨r.script, true⟩

def offering (version : String) (r : Release) : List Event :=
  [.offer ("\x7b\x22version\x22:\x22".toList ++ version.toList ++
      "\x22,\x22sha256\x22:\x22".toList ++ r.sha256 ++
      "\x22,\x22signature\x22:\x22".toList ++ r.signature ++ "\x22\x7d".toList),
    .go, .script r.script]

def installing (version : String) (r : Release) : List Event :=
  [.start, .go] ++ offering version r ++ [.go, .write 10 true, .go, .write 5 false, .go, .go]

theorem updates_are_safe_installing :
    ∃ h, Run (step threeReleases) (Careful threeReleases) (installed release10)
      (installing "1.1" release11 ++ [.go]) h ∧ (installed release10).Safe threeReleases h ∧
      h.version = "1.1".toList := by
  have hview : (execIf (step threeReleases) (careful threeReleases) (installed release10)
      (installing "1.1" release11 ++ [.go])).map (·.version) = some "1.1".toList := by
    decide +kernel
  obtain ⟨h, hrun, hversion⟩ := exists_run hview
  have htotal : ∀ a b, threeReleases.versionLe a b = true ∨ threeReleases.versionLe b a = true :=
    fun a b ↦ (le_total a b).imp decide_eq_true decide_eq_true
  have htrans : ∀ a b c, threeReleases.versionLe a b = true → threeReleases.versionLe b c = true →
      threeReleases.versionLe a c = true := fun a b c hab hbc ↦
    decide_eq_true (le_trans (of_decide_eq_true hab) (of_decide_eq_true hbc))
  exact ⟨h, hrun, (updates_are_safe htotal htrans ⟨rfl, rfl, rfl⟩ rfl hrun).1, hversion⟩

/-- A release that does not work stays when the process dies before it is put back, and an old
release comes through under a new name. -/
theorem updates_are_not_safe :
    (¬ ∀ es h, Run (step threeReleases) free (installed release11) es h →
      (installed release11).Safe threeReleases h) ∧
    ¬ ∀ es h, Run (step threeReleases) free (installed release11) es h →
      ∀ fs h', Run (step threeReleases) free h fs h' → NotOlder threeReleases h h' := by
  constructor
  · intro hall
    have hview : (exec (step threeReleases) (installed release11)
        (installing "1.2" release12 ++ [.kill])).map (fun h ↦
          h.run.isNone && !h.isWorking threeReleases) = some true := by decide +kernel
    obtain ⟨h, hrun, hbroken⟩ := exists_run_free hview
    rw [Bool.and_eq_true, Bool.not_eq_true'] at hbroken
    have hworks := (hall _ h hrun).works (by decide +kernel) (Option.isNone_iff_eq_none.mp hbroken.1)
    rw [hbroken.2] at hworks
    cases hworks
  · intro hall
    have hview : (exec (step threeReleases) (installed release11)
        (installing "9.9" release10 ++ [.go])).map (fun h ↦
          h.run.isNone && !threeReleases.versionLe (installed release11).version h.version) =
            some true := by
      decide +kernel
    obtain ⟨h, hrun, hold⟩ := exists_run_free hview
    rw [Bool.and_eq_true, Bool.not_eq_true'] at hold
    have hle := hall [] (installed release11) .nil _ h hrun rfl (Option.isNone_iff_eq_none.mp hold.1) (by decide +kernel)
    rw [hold.2] at hle
    cases hle.2

end Shellius.Collector.Updater
