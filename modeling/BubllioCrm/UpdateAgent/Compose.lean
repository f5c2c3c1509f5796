import BubllioCrm.Foundations.EnvFile
import BubllioCrm.UpdateAgent.Config
import BubllioCrm.UpdateAgent.Manifest
import Mathlib.Data.List.Sort
import Mathlib.Order.Basic

/-!
Owns the environment of the Compose adapter, its preflight, the file of the
release, and when that file pins every image to its own digest.

Does not own the commands after the preflight or the atomic replacement of the
file.
-/

namespace BubllioCrm.UpdateAgent

open BubllioCrm.Foundations

abbrev Environment := String → Option String

/-- What `lstat` of the managed file finds. -/
inductive ManagedFile where
  | missing
  | unavailable
  | present (isRegular ownedByAgent : Bool)

inductive CommandResult where
  | notRun
  | returned (code : Int)

/-- What the adapter finds on its host. -/
structure ComposeHost where
  isDirectory : String → Bool
  isFile : String → Bool
  isExecutable : String → Bool
  managedFile : ManagedFile
  managedParentWritable : Bool
  run : List String → Environment → CommandResult

def adapterError {Value : Type} (message : String) : Except Raised Value :=
  .error (.agentError .adapter message)

def requireAdapter (condition : Bool) (message : String) : Except Raised Unit :=
  if condition then .ok () else adapterError message

namespace ComposeConfig

/-- The value an image's variable is set to. -/
def imageReference (manifest : ReleaseManifest) (entry : String × ComposeImageConfig) : String :=
  entry.2.repository ++ "@" ++ (manifest.imageDigests.lookup entry.1).getD ""

/-- The assignments of `_environment` in their order. -/
def bindings (config : ComposeConfig) (manifest : ReleaseManifest) : List (String × String) :=
  (config.releaseVariable, "v" ++ manifest.version.text) ::
    config.images.map fun entry => (entry.2.environmentVariable, imageReference manifest entry)

/-- `set(manifest.image_digests) == set(self._config.images)`. -/
def hasImages (config : ComposeConfig) (manifest : ReleaseManifest) : Bool :=
  (manifest.imageDigests.all fun digest => config.images.any fun entry => entry.1 = digest.1) &&
    config.images.all fun entry => manifest.imageDigests.any fun digest => digest.1 = entry.1

/-- `_environment`. -/
def environment (config : ComposeConfig) (environ : Environment)
    (manifest : Option ReleaseManifest) : Except Raised Environment :=
  match manifest with
  | none => .ok environ
  | some manifest => do
      requireAdapter (config.hasImages manifest) "Manifest images do not match configured images"
      return EnvFile.assign environ (config.bindings manifest)

/-- The names of the file before they are sorted. -/
def releaseNames (config : ComposeConfig) : List String :=
  config.releaseVariable :: config.images.map fun entry => entry.2.environmentVariable

/-- The text `_persist_release_environment` writes. -/
def persistReleaseEnvironment (config : ComposeConfig) (environ : Environment)
    (manifest : ReleaseManifest) : Except Raised String := do
  let values ← config.environment environ (some manifest)
  return EnvFile.render ((config.releaseNames.insertionSort (· ≤ ·)).map fun name =>
    (name, (values name).getD ""))

/-- `_base_command` without the managed release. -/
def baseCommand (config : ComposeConfig) : List String :=
  [config.dockerExecutable, "compose", "--project-directory", config.projectDirectory,
    "--env-file", config.envFile] ++ config.composeFiles.flatMap fun file => ["--file", file]

/-- `_run`. -/
def runCommand (host : ComposeHost) (command : List String) (environment : Environment) :
    Except Raised Unit :=
  match host.run command environment with
  | .notRun => adapterError "Provider command could not run"
  | .returned code => requireAdapter (code = 0) "Provider command returned a failure"

def requireManagedFile (host : ComposeHost) : Except Raised Unit :=
  let untrusted := "The managed release environment is not trusted"
  match host.managedFile with
  | .unavailable => adapterError "The managed release environment is unavailable"
  | .missing => requireAdapter host.managedParentWritable untrusted
  | .present isRegular ownedByAgent =>
      requireAdapter (host.managedParentWritable && isRegular && ownedByAgent) untrusted

def preflight (config : ComposeConfig) (host : ComposeHost) (environ : Environment)
    (manifest : ReleaseManifest) : Except Raised Unit := do
  let unavailable := "A configured provider path is unavailable"
  requireAdapter (manifest.migrationPolicy = "online_safe")
    "This release requires an operator-managed maintenance window"
  requireAdapter (host.isDirectory config.projectDirectory) unavailable
  requireAdapter
    ((config.envFile :: config.composeFiles).all host.isFile &&
      [config.dockerExecutable, config.backupExecutable].all fun path =>
        host.isFile path && host.isExecutable path) unavailable
  requireManagedFile host
  let values ← config.environment environ (some manifest)
  runCommand host (config.baseCommand ++ ["config", "--quiet"]) values

/-! ### The file of the release -/

/-- The file says of every image its own reference, of the release variable the
version, and nothing else. -/
structure Pinned (config : ComposeConfig) (manifest : ReleaseManifest) (file : String) :
    Prop where
  release : EnvFile.read file config.releaseVariable = some ("v" ++ manifest.version.text)
  image : ∀ entry ∈ config.images, ∃ digest, manifest.imageDigests.lookup entry.1 = some digest ∧
    EnvFile.read file entry.2.environmentVariable = some (entry.2.repository ++ "@" ++ digest)
  nothingElse : ∀ name value, EnvFile.read file name = some value →
    name = config.releaseVariable ∨
      ∃ entry ∈ config.images, name = entry.2.environmentVariable

/-- The image variables are not the release variable, and images that share
one have one repository and one digest. -/
structure Separated (config : ComposeConfig) (manifest : ReleaseManifest) : Prop where
  release : ∀ entry ∈ config.images, entry.2.environmentVariable ≠ config.releaseVariable
  images : ∀ entry ∈ config.images, ∀ other ∈ config.images,
    entry.2.environmentVariable = other.2.environmentVariable →
      entry.2.repository = other.2.repository ∧
        manifest.imageDigests.lookup entry.1 = manifest.imageDigests.lookup other.1

theorem requireAdapter_ok {condition : Bool} {message : String} {result : Unit} :
    requireAdapter condition message = .ok result ↔ condition = true := by
  cases condition <;> simp [requireAdapter, adapterError]

variable {config : ComposeConfig} {manifest : ReleaseManifest} {environ : Environment}

theorem preflight_ok {host : ComposeHost}
    (passed : config.preflight host environ manifest = .ok ()) :
    config.hasImages manifest = true := by
  simp only [preflight, environment, bind_eq_ok, requireAdapter_ok, pure_eq_ok] at passed
  obtain ⟨-, -, -, -, -, -, -, -, -, ⟨-, same, -⟩, -⟩ := passed
  exact same

theorem hasImages_digest (same : config.hasImages manifest = true) :
    ∀ entry ∈ config.images, ∃ digest, manifest.imageDigests.lookup entry.1 = some digest := by
  intro entry member
  simp only [hasImages, Bool.and_eq_true, List.all_eq_true, List.any_eq_true,
    decide_eq_true_eq] at same
  obtain ⟨digest, digestMember, name⟩ := same.2 entry member
  cases found : manifest.imageDigests.lookup entry.1 with
  | some digest => exact ⟨digest, rfl⟩
  | none =>
      have absent := List.lookup_eq_none_iff.mp found digest digestMember
      simp [name] at absent

theorem persist_of_hasImages (environ : Environment) (same : config.hasImages manifest = true) :
    ∃ file, config.persistReleaseEnvironment environ manifest = .ok file := by
  simp only [persistReleaseEnvironment, environment, bind_eq_ok, pure_eq_ok, requireAdapter_ok]
  exact ⟨_, _, ⟨(), same, rfl⟩, rfl⟩

theorem bindings_names (config : ComposeConfig) (manifest : ReleaseManifest) :
    (config.bindings manifest).map Prod.fst = config.releaseNames := by
  simp [bindings, releaseNames, Function.comp_def]

/-- The file gives a name the last value that was assigned to it. -/
theorem read_persisted {file : String}
    (written : config.persistReleaseEnvironment environ manifest = .ok file)
    (oneLine : ∀ pair ∈ config.bindings manifest, EnvFile.OneLine pair) (name : String) :
    EnvFile.read file name = EnvFile.lookupLast name (config.bindings manifest) := by
  simp only [persistReleaseEnvironment, environment, bind_eq_ok, pure_eq_ok] at written
  obtain ⟨values, ⟨-, -, rfl⟩, rfl⟩ := written
  have assigned : ∀ name ∈ config.releaseNames, ∃ value,
      EnvFile.lookupLast name (config.bindings manifest) = some value := by
    intro name member
    rw [← bindings_names config manifest] at member
    obtain ⟨pair, isBinding, rfl⟩ := List.mem_map.mp member
    exact EnvFile.lookupLast_isSome isBinding
  have lines : ∀ pair ∈ (config.releaseNames.insertionSort (· ≤ ·)).map (fun name =>
      (name, (EnvFile.assign environ (config.bindings manifest) name).getD "")),
      EnvFile.OneLine pair := by
    intro pair member
    obtain ⟨name, isName, rfl⟩ := List.mem_map.mp member
    obtain ⟨value, last⟩ := assigned name ((List.mem_insertionSort _).mp isName)
    rw [EnvFile.assign_apply, last]
    exact oneLine _ (EnvFile.mem_of_lookupLast last)
  rw [EnvFile.read, EnvFile.assignments_render lines, EnvFile.lookupLast_map]
  by_cases isName : name ∈ config.releaseNames
  · obtain ⟨value, last⟩ := assigned name isName
    rw [if_pos ((List.mem_insertionSort _).mpr isName), EnvFile.assign_apply, last]
    rfl
  · rw [if_neg (fun member => isName ((List.mem_insertionSort _).mp member))]
    cases last : EnvFile.lookupLast name (config.bindings manifest) with
    | none => rfl
    | some value =>
        rw [← bindings_names config manifest] at isName
        exact absurd (List.mem_map_of_mem (EnvFile.mem_of_lookupLast last)) isName

/-! ### When the file pins every image -/

theorem environmentName_oneLine {name : String} (valid : isEnvironmentName name = true) :
    '=' ∉ name.toList ∧ '\n' ∉ name.toList :=
  ⟨not_mem_of_matchesHeadTail valid (by decide) (by decide),
    not_mem_of_matchesHeadTail valid (by decide) (by decide)⟩

theorem repository_not_mem {repository : String} (valid : isImageRepository repository = true) :
    '@' ∉ repository.toList ∧ '\n' ∉ repository.toList := by
  have matched := (Bool.and_eq_true_iff.mp valid).2
  exact ⟨not_mem_of_matchesAll matched (by decide), not_mem_of_matchesAll matched (by decide)⟩

theorem digest_line {digest : String} (valid : isDigest digest = true) :
    '\n' ∉ digest.toList := by
  simp only [isDigest, Bool.and_eq_true, decide_eq_true_eq] at valid
  obtain ⟨⟨scheme, -⟩, hex⟩ := valid
  rw [← List.take_append_drop 7 digest.toList, List.mem_append, not_or]
  constructor
  · rw [scheme]
    decide
  · intro member
    have isHex := List.all_eq_true.mp hex _ member
    simp [isLowerHex] at isHex

theorem versionText_not_mem (version : StableVersion) {char : Char} (notDot : char ≠ '.')
    (notV : char ≠ 'v') (notDigit : char.isDigit = false) :
    char ∉ ("v" ++ version.text).toList := by
  rw [String.toList_append, List.mem_append, not_or]
  constructor
  · simpa using notV
  · intro member
    rcases StableVersion.mem_text member with dot | digit
    · exact notDot dot
    · rw [digit] at notDigit
      cases notDigit

theorem imageReference_of_lookup {entry : String × ComposeImageConfig} {digest : String}
    (found : manifest.imageDigests.lookup entry.1 = some digest) :
    imageReference manifest entry = entry.2.repository ++ "@" ++ digest := by
  rw [imageReference, found]
  rfl

/-- A reference determines its repository and its digest. -/
theorem reference_injective {repository otherRepository digest otherDigest : String}
    (valid : isImageRepository repository = true)
    (otherValid : isImageRepository otherRepository = true)
    (same : repository ++ "@" ++ digest = otherRepository ++ "@" ++ otherDigest) :
    repository = otherRepository ∧ digest = otherDigest := by
  have chars := congrArg String.toList same
  simp only [String.toList_append, List.append_assoc] at chars
  have isAt : "@".toList = ['@'] := rfl
  rw [isAt, List.singleton_append, List.singleton_append] at chars
  have taken := congrArg (List.takeWhile (· != '@')) chars
  have before : ∀ char ∈ repository.toList, (char != '@') = true := by
    intro char member
    rw [bne_iff_ne]
    rintro rfl
    exact (repository_not_mem valid).1 member
  have otherBefore : ∀ char ∈ otherRepository.toList, (char != '@') = true := by
    intro char member
    rw [bne_iff_ne]
    rintro rfl
    exact (repository_not_mem otherValid).1 member
  rw [List.takeWhile_append_of_pos before, List.takeWhile_append_of_pos otherBefore] at taken
  simp only [List.takeWhile_cons, bne_self_eq_false, Bool.false_eq_true, if_false,
    List.append_nil] at taken
  rw [taken] at chars
  have rest := List.append_cancel_left chars
  exact ⟨String.toList_injective taken, String.toList_injective (List.cons.inj rest).2⟩

variable (wellFormed : config.toReleaseConfig.WellFormed)
  (validDigests : ∀ entry ∈ manifest.imageDigests,
    isImageName entry.1 = true ∧ isDigest entry.2 = true)
  (sameImages : config.hasImages manifest = true)

include wellFormed validDigests sameImages in
theorem bindings_oneLine : ∀ pair ∈ config.bindings manifest, EnvFile.OneLine pair := by
  intro pair member
  rcases List.mem_cons.mp member with rfl | isImage
  · have names := environmentName_oneLine wellFormed.releaseVariable
    exact {
      noEquals := names.1
      nameLine := names.2
      valueLine := versionText_not_mem _ (by decide) (by decide) (by decide) }
  · obtain ⟨entry, isEntry, rfl⟩ := List.mem_map.mp isImage
    have image := wellFormed.images entry isEntry
    have names := environmentName_oneLine image.environmentVariable
    obtain ⟨digest, found⟩ := hasImages_digest sameImages entry isEntry
    refine { noEquals := names.1, nameLine := names.2, valueLine := ?_ }
    have isDigest : '\n' ∉ digest.toList := by
      obtain ⟨before, after, split, -⟩ := List.lookup_eq_some_iff.mp found
      exact digest_line (validDigests (entry.1, digest) (by rw [split]; simp)).2
    simp only [imageReference_of_lookup found, String.toList_append, List.mem_append, not_or]
    exact ⟨⟨(repository_not_mem image.repository).2, by decide⟩, isDigest⟩

include wellFormed sameImages in
/-- Names have one value exactly when the images are separated. -/
theorem bindings_functional_iff :
    (∀ pair ∈ config.bindings manifest, ∀ other ∈ config.bindings manifest,
        pair.1 = other.1 → pair.2 = other.2) ↔ Separated config manifest := by
  have releaseIs : (config.releaseVariable, "v" ++ manifest.version.text) ∈
      config.bindings manifest := List.mem_cons_self
  have imageIs : ∀ entry ∈ config.images, (entry.2.environmentVariable,
      imageReference manifest entry) ∈ config.bindings manifest := fun entry member =>
    List.mem_cons_of_mem _ (List.mem_map_of_mem member)
  constructor
  · intro functional
    constructor
    · intro entry member same
      have equal : imageReference manifest entry = "v" ++ manifest.version.text :=
        functional _ (imageIs entry member) _ releaseIs same
      -- A reference holds an at sign, a version does not.
      have absent : '@' ∉ ("v" ++ manifest.version.text).toList :=
        versionText_not_mem _ (by decide) (by decide) (by decide)
      rw [← equal] at absent
      simp [imageReference] at absent
    · intro entry member other otherMember same
      have equal : imageReference manifest entry = imageReference manifest other :=
        functional _ (imageIs entry member) _ (imageIs other otherMember) same
      obtain ⟨digest, found⟩ := hasImages_digest sameImages entry member
      obtain ⟨otherDigest, otherFound⟩ := hasImages_digest sameImages other otherMember
      rw [imageReference_of_lookup found, imageReference_of_lookup otherFound] at equal
      have parts := reference_injective (wellFormed.images entry member).repository
        (wellFormed.images other otherMember).repository equal
      exact ⟨parts.1, by rw [found, otherFound, parts.2]⟩
  · intro separated pair member other otherMember same
    rcases List.mem_cons.mp member with rfl | isImage
    · rcases List.mem_cons.mp otherMember with rfl | otherImage
      · rfl
      · obtain ⟨entry, isEntry, rfl⟩ := List.mem_map.mp otherImage
        exact absurd same.symm (separated.release entry isEntry)
    · obtain ⟨entry, isEntry, rfl⟩ := List.mem_map.mp isImage
      rcases List.mem_cons.mp otherMember with rfl | otherImage
      · exact absurd same (separated.release entry isEntry)
      · obtain ⟨otherEntry, isOther, rfl⟩ := List.mem_map.mp otherImage
        obtain ⟨repository, digest⟩ := separated.images entry isEntry otherEntry isOther same
        simp only [imageReference, repository, digest]

include wellFormed validDigests sameImages in
theorem pinned_iff_separated {file : String}
    (written : config.persistReleaseEnvironment environ manifest = .ok file) :
    Pinned config manifest file ↔ Separated config manifest := by
  have reads := read_persisted written (bindings_oneLine wellFormed validDigests sameImages)
  rw [← bindings_functional_iff wellFormed sameImages, ← EnvFile.all_last_iff]
  constructor
  · intro pinned pair member
    rw [← reads]
    rcases List.mem_cons.mp member with rfl | isImage
    · exact pinned.release
    · obtain ⟨entry, isEntry, rfl⟩ := List.mem_map.mp isImage
      obtain ⟨digest, found, read⟩ := pinned.image entry isEntry
      rw [read, imageReference_of_lookup found]
  · intro last
    constructor
    · rw [reads]
      exact last _ List.mem_cons_self
    · intro entry member
      obtain ⟨digest, found⟩ := hasImages_digest sameImages entry member
      refine ⟨digest, found, ?_⟩
      rw [reads, ← imageReference_of_lookup found]
      exact last _ (List.mem_cons_of_mem _ (List.mem_map_of_mem member))
    · intro name value read
      rw [reads] at read
      rcases List.mem_cons.mp (EnvFile.mem_of_lookupLast read) with isRelease | isImage
      · exact Or.inl (congrArg Prod.fst isRelease)
      · obtain ⟨entry, isEntry, isPair⟩ := List.mem_map.mp isImage
        exact Or.inr ⟨entry, isEntry, (congrArg Prod.fst isPair).symm⟩


end ComposeConfig

end BubllioCrm.UpdateAgent
