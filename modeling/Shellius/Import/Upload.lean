import Mathlib.Data.List.Perm.Subperm
import Shellius.Lib.Checks
import Shellius.Lib.Dict
import Shellius.Lib.Words

/-!
# Uploaded archives

`parseZip` folds the files of an archive into one list of rows for each entity and one map of key
files, which is made from several keys for each file.  A second table of an entity replaces the
first, and a key file replaces those with one of its keys, its base name among them:
`parseZip_sound_iff` says for which archives nothing is lost and no reference gets another file.
-/

universe u v

namespace Shellius.Import.Upload

open Lib

/-- `ENTITIES` -/
inductive Entity
  | customers | servers | users | groups | policies | memberships
deriving DecidableEq

/-- `SINGULAR_TO_PLURAL`, with the two names that every object of JavaScript inherits: what they
give is no entity. -/
def singularToPlural : List (String × Option Entity) :=
  [("customer", some .customers), ("server", some .servers), ("user", some .users),
    ("group", some .groups), ("policy", some .policies), ("membership", some .memberships),
    ("customers", some .customers), ("servers", some .servers), ("users", some .users),
    ("groups", some .groups), ("policies", some .policies), ("memberships", some .memberships),
    ("constructor", none), ("__proto__", none)]

def bucketOf (s : List Char) : Option (Option Entity) := singularToPlural.lookup (.ofList s)

/-- What a JSON file holds: an array, or something else with rows in it. -/
structure Document (ρ : Type u) where
  isArray : Bool
  rows : List ρ

/-- `Array.isArray(data) ? data : []` -/
def Document.kept {ρ : Type u} (d : Document ρ) : List ρ := if d.isArray then d.rows else []

/-- The readers, each with its error's message, and `toLowerCase`. -/
structure Reading (δ : Type v) (ρ : Type u) where
  toLowerCase : List Char → List Char
  parseCsv : δ → Except String (List ρ)
  parseJson : δ → Except String (Document ρ)

/-- A file or a folder of an archive. -/
structure Entry (δ : Type v) where
  name : List Char
  isDirectory : Bool := false
  data : δ
deriving DecidableEq

inductive Warning
  | invalidZip (message : String)
  | unsafePath (name : List Char)
  | invalidJson (name : List Char) (message : String)
  | unmapped (name : List Char)
deriving DecidableEq

def Warning.text : Warning → String
  | .invalidZip message => "Invalid ZIP: " ++ message
  | .unsafePath name => "Skipped unsafe zip path: " ++ .ofList name
  | .invalidJson name message => "Invalid JSON in " ++ .ofList name ++ ": " ++ message
  | .unmapped name => "Could not determine the entity for \"" ++ .ofList name ++
      "\". Name it so a token matches one of: " ++
      "customers, servers, users, groups, policies, memberships (e.g. servers-prod.csv)."

/-- The file that a warning is about. -/
def Warning.name : Warning → Option (List Char)
  | .invalidZip _ => none
  | .unsafePath name | .invalidJson name _ | .unmapped name => some name

/-- What `parseUpload` returns of an archive. -/
structure Upload (δ : Type v) (ρ : Type u) where
  entities : Entity → List ρ := fun _ ↦ []
  files : Dict (List Char) (Entry δ) := []
  warnings : List Warning := []

variable {δ : Type v} {ρ : Type u} (R : Reading δ ρ) {u u' : Upload δ ρ} {f : Entry δ}
  {files : List (Entry δ)} {e : Entity} {k ref : List Char}

/-! ## Names -/

/-- `split('/').pop()` -/
def lastComponent (path : List Char) : List Char := path.rtakeWhile (· ≠ '/')

/-- `replace(/\\/g, '/')` -/
def slashes (path : List Char) : List Char := path.map fun c ↦ if c = '\\' then '/' else c

/-- `/\.csv$/i` and `/\.json$/i` -/
def hasExtension (extension : String) (base : List Char) : Bool :=
  extension.toList.isSuffixOf (base.map Char.toLower)

def stem (base : List Char) : List Char :=
  if hasExtension ".csv" base then base.rdrop 4
  else if hasExtension ".json" base then base.rdrop 5 else base

/-- `entityFromStem`: the whole stem, or else the first word of it that names an entity. -/
def entityFromStem (s : List Char) : Option (Option Entity) :=
  (bucketOf (R.toLowerCase s)).or
    ((words (fun c ↦ 'a' ≤ c ∧ c ≤ 'z') (R.toLowerCase s)).findSome? bucketOf)

def Entry.base (f : Entry δ) : List Char := R.toLowerCase (lastComponent f.name)

def Entry.norm (f : Entry δ) : List Char := R.toLowerCase (slashes f.name)

/-- The zip-slip guard. -/
def Entry.isUnsafe (f : Entry δ) : Bool := f.name.head? = some '/' ∨ ['.', '.'] <:+: f.name

/-! ## Reading an archive -/

/-- What the loop of `parseZip` takes an entry for. -/
inductive Role
  | skipped
  | unsafePath
  | csv (bucket : Option Entity)
  | json (bucket : Option Entity)
  | unmapped
  | keyFile
deriving DecidableEq

def Entry.role (f : Entry δ) : Role :=
  if f.isDirectory then .skipped
  else if f.isUnsafe then .unsafePath
  else
    let isCsv := hasExtension ".csv" (f.base R)
    let isJson := hasExtension ".json" (f.base R)
    match entityFromStem R (stem (f.base R)) with
    | some bucket => if isCsv then .csv bucket else if isJson then .json bucket else .keyFile
    | none => if isCsv || isJson then .unmapped else .keyFile

/-- The keys under which a file is put into the map. -/
def Entry.keys (f : Entry δ) : List (List Char) :=
  match f.role R with
  | .unmapped => [f.norm R, f.base R]
  | .keyFile => [f.norm R, lastComponent (f.norm R), f.name, f.base R]
  | _ => []

namespace Upload

def warn (u : Upload δ ρ) (w : Warning) : Upload δ ρ := { u with warnings := u.warnings ++ [w] }

/-- `entities[bucket] = rows`; under an inherited name nobody reads them. -/
def put (u : Upload δ ρ) (bucket : Option Entity) (rows : List ρ) : Upload δ ρ :=
  { u with entities := fun e ↦ if bucket = some e then rows else u.entities e }

def index (u : Upload δ ρ) (keys : List (List Char)) (f : Entry δ) : Upload δ ρ :=
  { u with files := keys.foldl (fun files k ↦ files.set k f) u.files }

end Upload

/-- The body of the loop of `parseZip`; an error of the CSV reader is not caught. -/
def parseEntry (u : Upload δ ρ) (f : Entry δ) : Except String (Upload δ ρ) :=
  match f.role R with
  | .skipped => .ok u
  | .unsafePath => .ok (u.warn (.unsafePath f.name))
  | .csv bucket => (R.parseCsv f.data).map (u.put bucket)
  | .json bucket =>
    match R.parseJson f.data with
    | .ok d => .ok (u.put bucket d.kept)
    | .error message => .ok (u.warn (.invalidJson f.name message))
  | .unmapped => .ok ((u.warn (.unmapped f.name)).index (f.keys R) f)
  | .keyFile => .ok (u.index (f.keys R) f)

/-- `parseZip`, of the entries of the archive or the error of its reader. -/
def parseZip : Except String (List (Entry δ)) → Except String (Upload δ ρ)
  | .error message => .ok { warnings := [.invalidZip message] }
  | .ok files => files.foldlM (parseEntry R) {}

/-! ## References -/

/-- `ref` with slashes, without a leading `./` and in lower case. -/
def normalized (ref : List Char) : List Char :=
  R.toLowerCase (match slashes ref with | '.' :: '/' :: cs => cs | cs => cs)

/-- The path is the reference or ends with it at the boundary of a folder. -/
def AtReference (path r : List Char) : Prop := path = r ∨ ('/' :: r) <:+ path

instance (path r : List Char) : Decidable (AtReference path r) :=
  inferInstanceAs (Decidable (_ ∨ _))

/-- `resolveFile`, with the entry in place of its data. -/
def resolveFile (files : Dict (List Char) (Entry δ)) (ref : List Char) : Option (Entry δ) :=
  if ref = [] then none
  else
    let r := normalized R ref
    let base := lastComponent r
    (files.get r).or ((files.get base).or
      ((files.find? fun p ↦
        let kn := R.toLowerCase (slashes p.1)
        AtReference kn r ∨ AtReference kn base).map Prod.snd))

/-! ## What is asked of it -/

def MapsTo (e : Entity) (f : Entry δ) : Prop :=
  f.isDirectory = false ∧ entityFromStem R (stem (f.base R)) = some (some e) ∧
    (hasExtension ".csv" (f.base R) = true ∨ hasExtension ".json" (f.base R) = true)

/-- What a file holds for an entity, if it is read. -/
def documentOf (e : Entity) (f : Entry δ) : Option (Document ρ) :=
  match f.role R with
  | .csv bucket =>
    if bucket = some e then (R.parseCsv f.data).toOption.map (⟨true, ·⟩) else none
  | .json bucket => if bucket = some e then (R.parseJson f.data).toOption else none
  | _ => none

/-- The rows of all files of an entity are among its rows, each as often as it was given, and a
warning names each file that was not read. -/
structure LosesNothing (files : List (Entry δ)) (u : Upload δ ρ) : Prop where
  rows : ∀ e, List.Subperm ((files.filterMap (documentOf R e)).flatMap Document.rows) (u.entities e)
  warned : ∀ f ∈ files, ∀ e, MapsTo R e f →
    (documentOf R e f).isSome ∨ ∃ w ∈ u.warnings, w.name = some f.name

/-- If there is a key file at the reference, then the file that it gives is at the reference. -/
def Resolves (files : List (Entry δ)) (u : Upload δ ρ) (ref : List Char) : Prop :=
  (∃ f ∈ files, f.role R = .keyFile ∧ AtReference (f.norm R) (normalized R ref)) →
    ∀ f, resolveFile R u.files ref = some f → AtReference (f.norm R) (normalized R ref)

/-- Of the files of the entity only the last has rows, and has them in an array. -/
def OneTable (files : List (Entry δ)) (e : Entity) : Prop :=
  let documents := files.filterMap (documentOf R e)
  (∀ d ∈ documents.dropLast, d.rows = []) ∧ ∀ d ∈ documents.getLast?, d.isArray ∨ d.rows = []

def lastWith (files : List (Entry δ)) (k : List Char) : Option (Entry δ) :=
  (files.filter fun f ↦ (f.keys R).contains k).getLast?

/-- No key file is at the reference, or the last file that has the reference for a key is at it,
or, if none has, the last that has the base name of the reference for a key. -/
def Findable (files : List (Entry δ)) (ref : List Char) : Prop :=
  ref = [] ∨
    (∀ f ∈ files, f.role R = .keyFile → ¬AtReference (f.norm R) (normalized R ref)) ∨
    ∀ f ∈ (lastWith R files (normalized R ref)).or
        (lastWith R files (lastComponent (normalized R ref))),
      AtReference (f.norm R) (normalized R ref)

/-! ## Lemmas about names and keys -/

theorem lastComponent_append (x r : List Char) :
    lastComponent (x ++ '/' :: r) = lastComponent r := by
  unfold lastComponent
  induction r using List.reverseRecOn with
  | nil => rw [List.rtakeWhile_concat_neg _ _ _ (by simp), List.rtakeWhile_nil]
  | append_singleton r c ih =>
    rw [← List.cons_append, ← List.append_assoc]
    by_cases hc : c = '/'
    · rw [List.rtakeWhile_concat_neg _ _ _ (by simp [hc]),
        List.rtakeWhile_concat_neg _ _ _ (by simp [hc])]
    · rw [List.rtakeWhile_concat_pos _ _ _ (by simp [hc]),
        List.rtakeWhile_concat_pos _ _ _ (by simp [hc]), ih]

theorem AtReference.lastComponent_eq {path r : List Char} (h : AtReference path r) :
    lastComponent path = lastComponent r := by
  obtain rfl | ⟨x, rfl⟩ := h
  · rfl
  · exact lastComponent_append x r

theorem get_foldl_set (keys : List (List Char)) (d : Dict (List Char) (Entry δ)) :
    (keys.foldl (fun files k ↦ files.set k f) d).get k = if k ∈ keys then some f else d.get k := by
  induction keys generalizing d with
  | nil => rfl
  | cons j keys ih =>
    rw [List.foldl_cons, ih, Dict.get_set]
    by_cases hj : k = j <;> simp [hj]

theorem role_of_mapsTo (h : MapsTo R e f) :
    f.role R = .unsafePath ∨ f.role R = .csv (some e) ∨ f.role R = .json (some e) := by
  obtain ⟨hdir, hentity, hext⟩ := h
  unfold Entry.role
  rw [hdir, hentity, if_neg Bool.false_ne_true]
  by_cases hsafe : f.isUnsafe
  · exact .inl (if_pos hsafe)
  · rw [if_neg hsafe]
    by_cases hcsv : hasExtension ".csv" (f.base R)
    · exact .inr (.inl (if_pos hcsv))
    · exact .inr (.inr ((if_neg hcsv).trans (if_pos (hext.resolve_left hcsv))))

/-! ## One entry and all -/

structure Taken (files : List (Entry δ)) (u u' : Upload δ ρ) : Prop where
  entities : ∀ e, u'.entities e =
    ((files.filterMap (documentOf R e)).getLast?.map Document.kept).getD (u.entities e)
  lookups : ∀ k, u'.files.get k = (lastWith R files k).or (u.files.get k)
  warnings : u.warnings ⊆ u'.warnings
  warned : ∀ f ∈ files, ∀ e, MapsTo R e f →
    (documentOf R e f).isSome ∨ ∃ w ∈ u'.warnings, w.name = some f.name

variable {R}

theorem Taken.of_one
    (entities : ∀ e, u'.entities e = ((documentOf R e f).map Document.kept).getD (u.entities e))
    (hfiles : u'.files = (f.keys R).foldl (fun files k ↦ files.set k f) u.files)
    (warnings : u.warnings ⊆ u'.warnings)
    (warned : ∀ e, MapsTo R e f →
      (documentOf R e f).isSome ∨ ∃ w ∈ u'.warnings, w.name = some f.name) :
    Taken R [f] u u' where
  entities e := by
    rw [entities, List.filterMap_cons]
    cases documentOf R e f <;> rfl
  lookups k := by
    rw [hfiles, get_foldl_set, lastWith, List.filter_singleton]
    by_cases hk : k ∈ f.keys R <;> simp [hk]
  warnings := warnings
  warned g hg := by
    rw [List.mem_singleton.mp hg]
    exact warned

theorem parseEntry_taken (h : parseEntry R u f = .ok u') : Taken R [f] u u' := by
  unfold parseEntry at h
  have hmaps := fun e ↦ role_of_mapsTo R (e := e) (f := f)
  cases hrole : f.role R <;> simp only [hrole] at h hmaps
  case skipped =>
    obtain rfl := Except.ok.inj h
    refine .of_one (fun e ↦ ?_) ?_ (List.Subset.refl _) (fun e he ↦ by simpa using hmaps e he)
    · rw [documentOf, hrole]
      rfl
    · rw [Entry.keys, hrole]
      rfl
  case unsafePath =>
    obtain rfl := Except.ok.inj h
    refine .of_one (fun e ↦ ?_) ?_ (List.subset_append_left _ _) (fun e _ ↦ .inr ⟨_,
      List.mem_append_right _ (List.mem_singleton_self _), rfl⟩)
    · rw [documentOf, hrole]
      rfl
    · rw [Entry.keys, hrole]
      rfl
  case csv bucket =>
    cases hrows : R.parseCsv f.data with
    | error => simp [hrows, Except.map] at h
    | ok rows => ?_
    rw [hrows] at h
    obtain rfl := Except.ok.inj h
    have hdoc : ∀ e, documentOf R e f = if bucket = some e then some ⟨true, rows⟩ else none := by
      intro e
      rw [documentOf, hrole]
      simp only [hrows]
      rfl
    refine .of_one (fun e ↦ ?_) ?_ (List.Subset.refl _) (fun e he ↦ .inl ?_)
    · rw [hdoc]
      by_cases hb : bucket = some e <;> simp [Upload.put, Document.kept, hb]
    · rw [Entry.keys, hrole]
      rfl
    · obtain hb | hb | hb := hmaps e he
      · cases hb
      · rw [hdoc, if_pos (Role.csv.inj hb)]
        rfl
      · cases hb
  case json bucket =>
    cases hjson : R.parseJson f.data with
    | ok d =>
      simp only [hjson] at h
      obtain rfl := Except.ok.inj h
      have hdoc : ∀ e, documentOf R e f = if bucket = some e then some d else none := by
        intro e
        rw [documentOf, hrole]
        simp only [hjson]
        rfl
      refine .of_one (fun e ↦ ?_) ?_ (List.Subset.refl _) (fun e he ↦ .inl ?_)
      · rw [hdoc]
        by_cases hb : bucket = some e <;> simp [Upload.put, hb]
      · rw [Entry.keys, hrole]
        rfl
      · obtain hb | hb | hb := hmaps e he
        · cases hb
        · cases hb
        · rw [hdoc, if_pos (Role.json.inj hb)]
          rfl
    | error message =>
      simp only [hjson] at h
      obtain rfl := Except.ok.inj h
      refine .of_one (fun e ↦ ?_) ?_ (List.subset_append_left _ _) (fun e _ ↦ .inr ⟨_,
        List.mem_append_right _ (List.mem_singleton_self _), rfl⟩)
      · rw [documentOf, hrole]
        simp only [hjson]
        by_cases hb : bucket = some e <;> simp [Upload.warn, hb, Except.toOption]
      · rw [Entry.keys, hrole]
        rfl
  case unmapped =>
    obtain rfl := Except.ok.inj h
    refine .of_one (fun e ↦ ?_) rfl (List.subset_append_left _ _)
      (fun e he ↦ by simpa using hmaps e he)
    rw [documentOf, hrole]
    rfl
  case keyFile =>
    obtain rfl := Except.ok.inj h
    refine .of_one (fun e ↦ ?_) rfl (List.Subset.refl _) (fun e he ↦ by simpa using hmaps e he)
    rw [documentOf, hrole]
    rfl

theorem Taken.trans {u'' : Upload δ ρ} (h : Taken R [f] u u') (h' : Taken R files u' u'') :
    Taken R (f :: files) u u'' where
  entities e := by
    rw [h'.entities, h.entities]
    cases hdoc : documentOf R e f with
    | none =>
      rw [List.filterMap_cons_none hdoc, List.filterMap_cons_none hdoc]
      rfl
    | some d =>
      rw [List.filterMap_cons_some hdoc, List.filterMap_cons_some hdoc, List.getLast?_cons (a := d),
        List.getLast?_cons (a := d)]
      cases (files.filterMap (documentOf R e)).getLast? <;> rfl
  lookups k := by
    rw [h'.lookups, h.lookups, lastWith, lastWith, lastWith, List.filter_cons, List.filter_cons,
      List.filter_nil]
    split
    · rw [List.getLast?_cons, List.getLast?_cons]
      cases (files.filter fun f ↦ (f.keys R).contains k).getLast? <;> rfl
    · rfl
  warnings := List.Subset.trans h.warnings h'.warnings
  warned g hg e he := by
    obtain rfl | hg := List.mem_cons.mp hg
    · refine (h.warned g (List.mem_singleton_self g) e he).imp_right ?_
      rintro ⟨w, hw, hname⟩
      exact ⟨w, h'.warnings hw, hname⟩
    · exact h'.warned g hg e he

theorem parseEntries_taken (h : files.foldlM (parseEntry R) u = .ok u') : Taken R files u u' := by
  induction files generalizing u with
  | nil =>
    obtain rfl := Except.ok.inj h
    exact ⟨fun _ ↦ rfl, fun _ ↦ rfl, List.Subset.refl _, fun _ hf ↦ absurd hf List.not_mem_nil⟩
  | cons f files ih =>
    obtain ⟨u₁, hone, hrest⟩ := bind_eq_ok.mp (List.foldlM_cons.symm.trans h)
    exact (parseEntry_taken hone).trans (ih hrest)

/-! ## When nothing is lost -/

theorem subperm_kept_iff {documents : List (Document ρ)} :
    List.Subperm (documents.flatMap Document.rows)
        ((documents.getLast?.map Document.kept).getD []) ↔
      (∀ d ∈ documents.dropLast, d.rows = []) ∧ ∀ d ∈ documents.getLast?, d.isArray ∨ d.rows = [] := by
  induction documents using List.reverseRecOn with
  | nil => simp
  | append_singleton documents d =>
    simp only [List.flatMap_append, List.flatMap_singleton, List.getLast?_concat, Option.map_some,
      Option.getD_some, List.dropLast_concat, Option.mem_some_iff, forall_eq', Document.kept]
    constructor
    · intro h
      have hlen := h.length_le
      rw [List.length_append] at hlen
      split at hlen
      · rename_i harray
        refine ⟨?_, .inl harray⟩
        have hnil : documents.flatMap Document.rows = [] :=
          List.length_eq_zero_iff.mp (by omega)
        exact List.flatMap_eq_nil_iff.mp hnil
      · rw [List.length_nil] at hlen
        have hnil : documents.flatMap Document.rows = [] :=
          List.length_eq_zero_iff.mp (by omega)
        exact ⟨List.flatMap_eq_nil_iff.mp hnil, .inr (List.length_eq_zero_iff.mp (by omega))⟩
    · rintro ⟨hearlier, hlast⟩
      rw [List.flatMap_eq_nil_iff.mpr hearlier, List.nil_append]
      split
      · exact List.Subperm.refl _
      · rename_i harray
        rw [hlast.resolve_left harray]

theorem losesNothing_iff (h : Taken R files {} u) :
    LosesNothing R files u ↔ ∀ e, OneTable R files e := by
  constructor
  · intro hnothing e
    have hrows := hnothing.rows e
    rw [h.entities] at hrows
    exact subperm_kept_iff.mp hrows
  · intro hone
    refine ⟨fun e ↦ ?_, h.warned⟩
    rw [h.entities]
    exact subperm_kept_iff.mpr (hone e)

theorem resolves_iff (h : Taken R files {} u) :
    Resolves R files u ref ↔ Findable R files ref := by
  unfold Resolves Findable
  by_cases href : ref = []
  · exact iff_of_true (fun _ f hf ↦ by simp [resolveFile, href] at hf) (.inl href)
  by_cases hkey : ∃ f ∈ files, f.role R = .keyFile ∧ AtReference (f.norm R) (normalized R ref)
  · have hget : ∀ k, u.files.get k = lastWith R files k := fun k ↦
      (h.lookups k).trans (Option.or_none)
    have hbase : ∃ f, lastWith R files (lastComponent (normalized R ref)) = some f := by
      obtain ⟨f, hf, hrole, hat⟩ := hkey
      refine Option.isSome_iff_exists.mp ?_
      rw [lastWith, Option.isSome_iff_ne_none, ne_eq, List.getLast?_eq_none_iff]
      refine List.ne_nil_of_mem (List.mem_filter.mpr ⟨hf, List.contains_iff_mem.mpr ?_⟩)
      rw [Entry.keys, hrole, ← hat.lastComponent_eq]
      exact List.mem_cons_of_mem _ List.mem_cons_self
    obtain ⟨g, hg⟩ := hbase
    have hresolve : resolveFile R u.files ref = (lastWith R files (normalized R ref)).or
        (lastWith R files (lastComponent (normalized R ref))) := by
      simp only [resolveFile, if_neg href, hget, hg, Option.some_or]
    rw [hresolve]
    constructor
    · exact fun hall ↦ .inr (.inr fun f hf ↦ hall hkey f hf)
    · rintro (hnil | hnone | hall) - f hf
      · exact absurd hnil href
      · obtain ⟨f', hf', hrole, hat⟩ := hkey
        exact absurd hat (hnone f' hf' hrole)
      · exact hall f hf
  · exact iff_of_true (fun hex ↦ absurd hex hkey)
      (.inr (.inl fun f hf hrole hat ↦ hkey ⟨f, hf, hrole, hat⟩))

/-- Nothing of an archive is lost and no reference gets a file that only shares the base name,
exactly if each entity has one table and each reference is indexed to a file that is at it. -/
theorem parseZip_sound_iff (h : parseZip R (.ok files) = .ok u) :
    (LosesNothing R files u ∧ ∀ ref, Resolves R files u ref) ↔
      (∀ e, OneTable R files e) ∧ ∀ ref, Findable R files ref :=
  have htaken := parseEntries_taken h
  and_congr (losesNothing_iff htaken) (forall_congr' fun _ ↦ resolves_iff htaken)

def plainReading : Reading (List String) String :=
  ⟨List.map Char.toLower, .ok, fun rows ↦ .ok ⟨true, rows⟩⟩

def oneTable : List (Entry (List String)) := [{ name := "servers.csv".toList, data := ["web-1"] }]

theorem oneTable_sound : ∃ u, parseZip plainReading (.ok oneTable) = .ok u ∧
    LosesNothing plainReading oneTable u ∧ ∀ ref, Resolves plainReading oneTable u ref := by
  obtain ⟨u, hu, -⟩ := map_eq_ok.mp (show (parseZip plainReading (.ok oneTable)).map
    (fun u ↦ u.entities .servers) = .ok ["web-1"] by decide +kernel)
  refine ⟨u, hu, (parseZip_sound_iff hu).mpr ⟨fun e ↦ ?_, fun ref ↦ .inr (.inl fun f hf hkey ↦ ?_)⟩⟩
  · cases e <;> unfold OneTable <;> decide +kernel
  · rw [List.mem_singleton.mp hf] at hkey
    exact absurd hkey (by decide +kernel)

def twoOfEach : List (Entry (List String)) :=
  [{ name := "servers-a.csv".toList, data := ["web-1"] },
    { name := "servers-b.csv".toList, data := ["web-2"] },
    { name := "a/keys/id.pem".toList, data := ["key of a"] },
    { name := "b/id.pem".toList, data := ["key of b"] }]

/-- The rows of the first table are gone, and the reference to the first key gets the other. -/
theorem twoOfEach_replaced : ∃ u, parseZip plainReading (.ok twoOfEach) = .ok u ∧
    u.entities .servers = ["web-2"] ∧ u.warnings = [] ∧
    ¬LosesNothing plainReading twoOfEach u ∧
    ¬Resolves plainReading twoOfEach u "keys/id.pem".toList := by
  obtain ⟨u, hu, hread⟩ := map_eq_ok.mp (show (parseZip plainReading (.ok twoOfEach)).map
    (fun u ↦ (u.entities .servers, u.warnings,
      resolveFile plainReading u.files "keys/id.pem".toList)) =
    .ok (["web-2"], [], twoOfEach.getLast?) by decide +kernel)
  obtain ⟨hrows, hwarnings, hresolve⟩ : _ ∧ _ ∧ _ := by simpa only [Prod.mk.injEq] using hread
  refine ⟨u, hu, hrows, hwarnings, fun h ↦ ?_, fun h ↦ ?_⟩
  · have hlen := (h.rows .servers).length_le
    rw [hrows] at hlen
    exact absurd hlen (by decide +kernel)
  · exact absurd (h ⟨_, List.mem_cons_of_mem _ (List.mem_cons_of_mem _ List.mem_cons_self),
      by decide +kernel⟩ _ hresolve) (by decide +kernel)

end Shellius.Import.Upload
