import BubllioCrm.Foundations.AtomicReplace
import BubllioCrm.UpdateAgent.Pinning

/-!
Owns the deployment of a checked release: the file it is written to over any
run of deployments, the Compose commands that follow, and what the variables of
the Compose files stand for in them.

Does not own how Compose reads its files beyond the order of their variables.
-/

namespace BubllioCrm.UpdateAgent

open BubllioCrm.Foundations
open AtomicReplace

/-! ### The commands -/

/-- A Compose command: its environment files, what it does and the process
environment it is given. -/
structure ComposeCall where
  envFiles : List String
  action : List String
  environment : Environment

namespace ComposeConfig

/-- `_base_command` followed by what the command does. -/
def arguments (config : ComposeConfig) (call : ComposeCall) : List String :=
  [config.dockerExecutable, "compose", "--project-directory", config.projectDirectory] ++
    (call.envFiles.flatMap fun file => ["--env-file", file]) ++
    (config.composeFiles.flatMap fun file => ["--file", file]) ++ call.action

/-- The environment files of `_base_command`. -/
def envFiles (config : ComposeConfig) (managedRelease : Bool) : List String :=
  if managedRelease then [config.envFile, config.managedReleaseEnvFile] else [config.envFile]

/-- `_reconciliation_environment`. -/
def reconciliationEnvironment (config : ComposeConfig) (environ : Environment) : Environment :=
  config.releaseNames.foldl (fun current name => Function.update current name none) environ

def signedServices (config : ComposeConfig) : List String :=
  (config.images.flatMap fun entry => entry.2.services).insertionSort (· ≤ ·)

/-- The commands of `deploy`, in their order. -/
def deployCalls (config : ComposeConfig) (environ : Environment) : List ComposeCall :=
  [{ envFiles := config.envFiles true
     action := "pull" :: config.signedServices
     environment := config.reconciliationEnvironment environ },
   { envFiles := config.envFiles true
     action := ["up", "--detach", "--remove-orphans"]
     environment := config.reconciliationEnvironment environ }]

/-- Commands run until one fails; the commands that ran, and the result. -/
def runCalls (config : ComposeConfig) (host : ComposeHost) :
    List ComposeCall → List ComposeCall × Except Raised Unit
  | [] => ([], .ok ())
  | call :: rest =>
      match runCommand host (config.arguments call) call.environment with
      | .error raised => ([call], .error raised)
      | .ok () => (call :: (config.runCalls host rest).1, (config.runCalls host rest).2)

/-- `deploy`, where `replace` puts a text in the place of the managed file. -/
def deploy (config : ComposeConfig) (host : ComposeHost) (environ : Environment)
    (manifest : ReleaseManifest) (replace : String → Except Raised Unit) :
    List ComposeCall × Except Raised Unit :=
  match config.persistReleaseEnvironment environ manifest with
  | .error raised => ([], .error raised)
  | .ok file =>
      match replace file with
      | .error raised => ([], .error raised)
      | .ok () => config.runCalls host (config.deployCalls environ)

/-! ### What the variables stand for -/

variable {config : ComposeConfig} {manifest : ReleaseManifest} {environ : Environment}

theorem signedServices_perm (config : ComposeConfig) :
    config.signedServices.Perm (config.images.flatMap fun entry => entry.2.services) :=
  List.perm_insertionSort _ _

/-- No service is pulled twice. -/
theorem signedServices_nodup (wellFormed : config.toReleaseConfig.WellFormed) :
    config.signedServices.Nodup := by
  rw [(signedServices_perm config).nodup_iff, List.flatMap, List.nodup_flatten]
  refine ⟨fun services member => ?_, wellFormed.services⟩
  have ⟨entry, isEntry, same⟩ := List.mem_map.mp member
  rw [← same]
  exact (wellFormed.images entry isEntry).services

/-! ### The file over a run of deployments -/

/-- The bytes of `.encode()`. -/
def encodeText (text : String) : List UInt8 :=
  text.toUTF8.data.toList

/-- A release that was verified and passed the preflight. -/
structure CheckedRelease (config : ComposeConfig) where
  raw : Json
  repository : String
  expected : StableVersion
  current : StableVersion
  manifest : ReleaseManifest
  host : ComposeHost
  environ : Environment
  parsed : parseVerifiedManifest raw repository expected current = .ok manifest
  passed : config.preflight host environ manifest = .ok ()

/-- A call of `_persist_release_environment`: the text for the release, and the
chunks in which its bytes are written. -/
structure Persisting (config : ComposeConfig) extends CheckedRelease config where
  file : String
  written : config.persistReleaseEnvironment environ manifest = .ok file
  chunks : List (List UInt8)
  whole : chunks.flatten = encodeText file

/-- What can happen to the managed file. -/
inductive Incident (config : ComposeConfig) where
  | persisted (call : Persisting config)
  | interrupted (call : Persisting config)
  | lostPower

namespace Incident

def event : Incident config → AtomicReplace.Event UInt8
  | .persisted call => .replaced call.chunks
  | .interrupted call => .interrupted call.chunks
  | .lostPower => .lostPower

def call : Incident config → Option (Persisting config)
  | .persisted call => some call
  | .interrupted call => some call
  | .lostPower => none

theorem call_of_chunks {incident : Incident config} {chunks : List (List UInt8)}
    (found : incident.event.chunks = some chunks) :
    ∃ call, incident.call = some call ∧ call.chunks = chunks := by
  cases incident with
  | persisted call => exact ⟨call, rfl, Option.some.inj found⟩
  | interrupted call => exact ⟨call, rfl, Option.some.inj found⟩
  | lostPower => cases found

end Incident

theorem CheckedRelease.reads (release : CheckedRelease config)
    {provider : List (String × Json)}
    (loaded : loadReleaseConfig provider = .ok config.toReleaseConfig) {file : String}
    (written : config.persistReleaseEnvironment environ release.manifest = .ok file)
    (name : String) :
    EnvFile.read file name = EnvFile.lookupLast name (config.bindings release.manifest) :=
  read_persisted written (bindings_oneLine (loadReleaseConfig_ok loaded)
    (parseVerifiedManifest_ok release.parsed).2 (preflight_ok release.passed)) name

end ComposeConfig

open ComposeConfig

variable {provider : List (String × Json)} {config : ComposeConfig}

/-- A process environment with a tag of its own for the release. -/
def taggedEnviron : Environment := fun name =>
  if name = "BUBLLIO_IMAGE_TAG" then some "latest" else none

def sampleRelease : CheckedRelease separateVariables where
  raw := rawManifest
  repository := "acme/bubllio"
  expected := { major := 1, minor := 3, patch := 0 }
  current := { major := 1, minor := 2, patch := 0 }
  manifest := parsedManifest
  host := readyHost
  environ := taggedEnviron
  parsed := rawManifest_parsed
  passed := rfl

/-- The content is the initial one, and no file was written to its end; or it is
the file of a checked release after which none was, and the file pins every
image of the release exactly when the images are separated. -/
def WholeContent (config : ComposeConfig) (initial : Option (List UInt8))
    (incidents : List (Incident config)) (content : Option (List UInt8)) : Prop :=
  (content = initial ∧ ∀ incident ∈ incidents, incident.event.finishes = false) ∨
    ∃ earlier incident later call, incidents = earlier ++ incident :: later ∧
      incident.call = some call ∧
      (∀ other ∈ later, other.event.finishes = false) ∧
      content = some (encodeText call.file) ∧
      (Pinned config call.manifest call.file ↔ Separated config call.manifest)

/-- Whatever interrupts the deployments, at any operation, the managed file is
whole. -/
theorem managed_file_whole {initial : Option (List UInt8)} {incidents : List (Incident config)}
    {finish : Directory UInt8}
    (loaded : loadReleaseConfig provider = .ok config.toReleaseConfig)
    (run : (Directory.settled initial).Run (incidents.map Incident.event) finish) :
    WholeContent config initial incidents (finish.target.map File.content) := by
  have within := run.within (Directory.settled_within initial)
  have possible := within.possible finish.target List.mem_cons_self
  rcases mem_contents possible with ⟨same, unfinished⟩ | ⟨earlier, event, later, chunks, split,
    isChunks, content, unfinished⟩
  · exact Or.inl ⟨same, fun incident member => unfinished _ (List.mem_map_of_mem member)⟩
  · have ⟨before, rest, isIncidents, isEarlier, isRest⟩ := List.map_eq_append_iff.mp split
    have ⟨incident, after, isSplit, isEvent, isLater⟩ := List.map_eq_cons_iff.mp isRest
    rw [← isEvent] at isChunks
    have ⟨call, isCall, sameChunks⟩ := Incident.call_of_chunks isChunks
    refine Or.inr ⟨before, incident, after, call, by rw [isIncidents, isSplit], isCall, ?_, ?_, ?_⟩
    · intro other member
      exact unfinished _ (isLater ▸ List.mem_map_of_mem member)
    · rw [content, ← sameChunks, call.whole]
    · exact pinned_iff_separated (loadReleaseConfig_ok loaded)
        (parseVerifiedManifest_ok call.parsed).2 (preflight_ok call.passed) call.written

/-! ### A release that a loss of power takes back -/

def sampleFile : String :=
  "BUBLLIO_BACKEND_IMAGE=ghcr.io/acme/backend@" ++ backendDigest ++ "\n" ++
    "BUBLLIO_FRONTEND_IMAGE=ghcr.io/acme/frontend@" ++ frontendDigest ++ "\n" ++
    "BUBLLIO_IMAGE_TAG=v1.3.0\n"

def samplePersisting : Persisting separateVariables where
  toCheckedRelease := sampleRelease
  file := sampleFile
  written := by decide +kernel
  chunks := [encodeText sampleFile]
  whole := by simp

def takenBack : List (Incident separateVariables) :=
  [.interrupted samplePersisting, .lostPower]

/-- The file has its name, the directory is not synchronized yet, and the loss
of power brings the directory without it back. -/
theorem managed_file_whole_takenBack :
    ∃ finish : Directory UInt8,
      (Directory.settled none).Run (takenBack.map Incident.event) finish ∧
        WholeContent separateVariables none takenBack (finish.target.map File.content) := by
  have run : (Directory.settled none).Run (takenBack.map Incident.event)
      { target := none, previous := [], temporary := none } :=
    .step (.step .start (.killed samplePersisting.chunks 4))
      (.lostPower (.absent (List.mem_cons_of_mem _ List.mem_cons_self)))
  exact ⟨_, run, managed_file_whole separateVariables_loaded run⟩

end BubllioCrm.UpdateAgent
