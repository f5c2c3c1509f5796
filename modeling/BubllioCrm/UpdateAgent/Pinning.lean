import BubllioCrm.UpdateAgent.Compose

/-!
Owns the pinning of a release: from an accepted configuration, a verified
manifest and a passed preflight to the file of the release.
-/

namespace BubllioCrm.UpdateAgent

open BubllioCrm.Foundations
open ComposeConfig

/-- The file is written, and it pins every image exactly when no image uses the
release variable and images that share a variable have one reference. -/
theorem release_pinned_iff {provider : List (String × Json)} {config : ComposeConfig}
    {raw : Json} {repository : String} {expected current : StableVersion}
    {manifest : ReleaseManifest} {host : ComposeHost} {checked environ : Environment}
    (loaded : loadReleaseConfig provider = .ok config.toReleaseConfig)
    (parsed : parseVerifiedManifest raw repository expected current = .ok manifest)
    (passed : config.preflight host checked manifest = .ok ()) :
    ∃ file, config.persistReleaseEnvironment environ manifest = .ok file ∧
      (Pinned config manifest file ↔ Separated config manifest) := by
  have sameImages := preflight_ok passed
  have validDigests := (parseVerifiedManifest_ok parsed).2
  obtain ⟨file, written⟩ := persist_of_hasImages environ sameImages
  exact ⟨file, written,
    pinned_iff_separated (loadReleaseConfig_ok loaded) validDigests sameImages written⟩

/-! ### A configuration with one variable for two images -/

def imageSection (repository environmentVariable service : String) : Json :=
  .obj [("repository", .str repository), ("environment_variable", .str environmentVariable),
    ("services", .arr [.str service])]

def providerSection (backendVariable frontendVariable : String) : List (String × Json) :=
  [("kind", .str "docker_compose"), ("release_variable", .str "BUBLLIO_IMAGE_TAG"),
    ("images", .obj [
      ("backend", imageSection "ghcr.io/acme/backend" backendVariable "backend"),
      ("frontend", imageSection "ghcr.io/acme/frontend" frontendVariable "frontend")])]

def providerConfig (backendVariable frontendVariable : String) : ComposeConfig where
  releaseVariable := "BUBLLIO_IMAGE_TAG"
  images := [
    ("backend", {
      repository := "ghcr.io/acme/backend"
      environmentVariable := backendVariable
      services := ["backend"] }),
    ("frontend", {
      repository := "ghcr.io/acme/frontend"
      environmentVariable := frontendVariable
      services := ["frontend"] })]
  dockerExecutable := "/usr/bin/docker"
  projectDirectory := "/srv/bubllio"
  composeFiles := ["/srv/bubllio/compose.production.yaml"]
  envFile := "/srv/bubllio/.env.production"
  managedReleaseEnvFile := "/srv/bubllio/.bubllio-update-agent/release.env"
  backupExecutable := "/usr/local/bin/backup"

def separateVariables : ComposeConfig :=
  providerConfig "BUBLLIO_BACKEND_IMAGE" "BUBLLIO_FRONTEND_IMAGE"

def sharedVariable : ComposeConfig :=
  providerConfig "BUBLLIO_IMAGE" "BUBLLIO_IMAGE"

def backendDigest : String :=
  "sha256:1111111111111111111111111111111111111111111111111111111111111111"

def frontendDigest : String :=
  "sha256:2222222222222222222222222222222222222222222222222222222222222222"

def rawManifest : Json := .obj [
  ("repository", .str "acme/bubllio"), ("version", .str "v1.3.0"),
  ("commit_sha", .str "0123456789012345678901234567890123456789"),
  ("image_digests", .obj [("backend", .str backendDigest), ("frontend", .str frontendDigest)]),
  ("min_version", .str "1.0.0"), ("max_version", .str "1.2.9"),
  ("migration_policy", .str "online_safe"), ("expected_schema", .str "0042"),
  ("health_timeout_seconds", .int 120), ("rollback_compatible", .bool true)]

def parsedManifest : ReleaseManifest where
  repository := "acme/bubllio"
  version := { major := 1, minor := 3, patch := 0 }
  commitSha := "0123456789012345678901234567890123456789"
  imageDigests := [("backend", backendDigest), ("frontend", frontendDigest)]
  minimumVersion := { major := 1, minor := 0, patch := 0 }
  maximumVersion := { major := 1, minor := 2, patch := 9 }
  migrationPolicy := "online_safe"
  expectedSchema := "0042"
  healthTimeoutSeconds := 120
  rollbackCompatible := true

/-- Every path is there and every command succeeds. -/
def readyHost : ComposeHost where
  isDirectory := fun _ => true
  isFile := fun _ => true
  isExecutable := fun _ => true
  managedFile := .missing
  managedParentWritable := true
  run := fun _ _ => .returned 0

theorem rawManifest_parsed :
    parseVerifiedManifest rawManifest "acme/bubllio" { major := 1, minor := 3, patch := 0 }
      { major := 1, minor := 2, patch := 0 } = .ok parsedManifest := by
  decide +kernel

theorem separateVariables_loaded :
    loadReleaseConfig (providerSection "BUBLLIO_BACKEND_IMAGE" "BUBLLIO_FRONTEND_IMAGE") =
      .ok separateVariables.toReleaseConfig := by
  decide +kernel

theorem sharedVariable_loaded :
    loadReleaseConfig (providerSection "BUBLLIO_IMAGE" "BUBLLIO_IMAGE") =
      .ok sharedVariable.toReleaseConfig := by
  decide +kernel

theorem readyHost_passes (backendVariable frontendVariable : String) :
    (providerConfig backendVariable frontendVariable).preflight readyHost (fun _ => none)
      parsedManifest = .ok () := rfl

/-- The configuration with a variable for each image has its file pinned. -/
theorem release_pinned_separateVariables :
    ∃ file, separateVariables.persistReleaseEnvironment (fun _ => none) parsedManifest = .ok file ∧
      (Pinned separateVariables parsedManifest file ↔ Separated separateVariables parsedManifest) :=
  release_pinned_iff separateVariables_loaded rawManifest_parsed (readyHost_passes _ _)

/-- Two images with one variable are accepted everywhere, and the file leaves
the first of them without its digest. -/
theorem release_not_always_pinned :
    ¬ ∀ (provider : List (String × Json)) (config : ComposeConfig) (raw : Json)
      (repository : String) (expected current : StableVersion) (manifest : ReleaseManifest)
      (host : ComposeHost) (checked environ : Environment),
      loadReleaseConfig provider = .ok config.toReleaseConfig →
      parseVerifiedManifest raw repository expected current = .ok manifest →
      config.preflight host checked manifest = .ok () →
      ∃ file, config.persistReleaseEnvironment environ manifest = .ok file ∧
        Pinned config manifest file := by
  intro always
  obtain ⟨file, written, pinned⟩ := always _ _ _ _ _ _ _ _ _ (fun _ => none)
    sharedVariable_loaded rawManifest_parsed (readyHost_passes _ _)
  have sameImages := preflight_ok (readyHost_passes "BUBLLIO_IMAGE" "BUBLLIO_IMAGE")
  have separated := (pinned_iff_separated (loadReleaseConfig_ok sharedVariable_loaded)
    (parseVerifiedManifest_ok rawManifest_parsed).2 sameImages written).mp pinned
  have shared := separated.images _ List.mem_cons_self _
    (List.mem_cons_of_mem _ List.mem_cons_self) rfl
  exact absurd shared.1 (by decide)

end BubllioCrm.UpdateAgent
