import BubllioCrm.Foundations.Fallible
import BubllioCrm.Foundations.Json
import BubllioCrm.Foundations.Patterns
import BubllioCrm.UpdateAgent.Release

/-!
Owns the part of `load_config` that reads the release variable and the images
of the provider, and the configuration of the Compose adapter.

Does not own the sections of the configuration that the adapter never reads;
paths are the texts of the resolved paths.
-/

namespace BubllioCrm.UpdateAgent

open BubllioCrm.Foundations

structure ComposeImageConfig where
  repository : String
  environmentVariable : String
  services : List String
deriving DecidableEq

/-- What the environment of a release depends on. -/
structure ReleaseConfig where
  releaseVariable : String
  images : List (String × ComposeImageConfig)
deriving DecidableEq

structure ComposeConfig extends ReleaseConfig where
  dockerExecutable : String
  projectDirectory : String
  composeFiles : List String
  envFile : String
  managedReleaseEnvFile : String
  backupExecutable : String

def invalidConfiguration {Value : Type} (message : String) : Except Raised Value :=
  .error (.agentError .configuration message)

def requireConfiguration (condition : Bool) (message : String) : Except Raised Unit :=
  if condition then .ok () else invalidConfiguration message

def expectMapping (value : Json) (name : String) : Except Raised (List (String × Json)) :=
  match value with
  | .obj fields => .ok fields
  | _ => invalidConfiguration (name ++ " must be an object")

def requiredText (data : List (String × Json)) (key : String) : Except Raised String :=
  match Json.get key data with
  | .str text =>
      if text.isEmpty then invalidConfiguration (key ++ " must be a non-empty string")
      else .ok text
  | _ => invalidConfiguration (key ++ " must be a non-empty string")

/-- `_ENVIRONMENT_NAME`. -/
def isEnvironmentName (text : String) : Bool :=
  matchesHeadTail Char.isUpper (fun char => char.isUpper || char.isDigit || char = '_') text

/-- `[A-Za-z0-9./:_-]+`. -/
def isImageRepository (text : String) : Bool :=
  !text.isEmpty && matchesAll (fun char => char.isAlphanum || char ∈ ['.', '/', ':', '_', '-']) text

/-- `[A-Za-z0-9][A-Za-z0-9_.-]*`. -/
def isServiceName (text : String) : Bool :=
  matchesHeadTail Char.isAlphanum (fun char => char.isAlphanum || char ∈ ['_', '.', '-']) text

def serviceName (value : Json) : Option String :=
  match value with
  | .str text => if isServiceName text then some text else none
  | _ => none

def imageServices (value : Json) : Except Raised (List String) :=
  match value with
  | .arr items =>
      if items.isEmpty || !items.all fun item => (serviceName item).isSome then
        invalidConfiguration "image services must be a non-empty list of safe names"
      else .ok (items.filterMap serviceName)
  | _ => invalidConfiguration "image services must be a non-empty list of safe names"

def isImageKey (name : String) : Bool :=
  matchesHeadTail isLowerAlphanum (fun char => isLowerAlphanum char || char ∈ ['_', '.', '-']) name

/-- One pass of the loop over the images. -/
def loadImage (configuredServices : List String) (name : String) (rawImage : Json) :
    Except Raised ComposeImageConfig := do
  requireConfiguration (isImageKey name) "images keys are invalid"
  let image ← expectMapping rawImage ("images." ++ name)
  let repository ← requiredText image "repository"
  requireConfiguration (isImageRepository repository && '@' ∉ repository.toList)
    "image repository is invalid"
  let environmentVariable ← requiredText image "environment_variable"
  requireConfiguration (isEnvironmentName environmentVariable)
    "image environment variable is invalid"
  let services ← imageServices (Json.get "services" image)
  requireConfiguration (services.Nodup ∧ ∀ service ∈ services, service ∉ configuredServices)
    "Compose services may be assigned to only one image"
  return {
    repository := repository
    environmentVariable := environmentVariable
    services := services }

def loadImages (configuredServices : List String) (rawImages : List (String × Json)) :
    Except Raised (List (String × ComposeImageConfig)) :=
  match rawImages with
  | [] => .ok []
  | (name, rawImage) :: rest => do
      let image ← loadImage configuredServices name rawImage
      let images ← loadImages (configuredServices ++ image.services) rest
      return (name, image) :: images

def loadReleaseConfig (provider : List (String × Json)) : Except Raised ReleaseConfig := do
  let releaseVariable ← requiredText provider "release_variable"
  requireConfiguration (isEnvironmentName releaseVariable)
    "release_variable must be an uppercase environment name"
  let rawImages ← expectMapping (Json.get "images" provider) "images"
  let images ← loadImages [] rawImages
  requireConfiguration (!images.isEmpty) "images must not be empty"
  return { releaseVariable := releaseVariable, images := images }

/-! ### What an accepted configuration satisfies -/

structure ComposeImageConfig.WellFormed (image : ComposeImageConfig) : Prop where
  repository : isImageRepository image.repository = true
  environmentVariable : isEnvironmentName image.environmentVariable = true
  services : image.services.Nodup

structure ReleaseConfig.WellFormed (config : ReleaseConfig) : Prop where
  releaseVariable : isEnvironmentName config.releaseVariable = true
  images : ∀ entry ∈ config.images, entry.2.WellFormed
  /-- A service belongs to one image. -/
  services : (config.images.map fun entry => entry.2.services).Pairwise List.Disjoint
  nonempty : config.images ≠ []

theorem requireConfiguration_ok {condition : Bool} {message : String} {result : Unit} :
    requireConfiguration condition message = .ok result ↔ condition = true := by
  cases condition <;> simp [requireConfiguration, invalidConfiguration]

theorem loadImage_ok {configuredServices : List String} {name : String} {rawImage : Json}
    {image : ComposeImageConfig} (loaded : loadImage configuredServices name rawImage = .ok image) :
    image.WellFormed ∧ ∀ service ∈ image.services, service ∉ configuredServices := by
  simp only [loadImage, bind_eq_ok, requireConfiguration_ok, pure_eq_ok] at loaded
  obtain ⟨-, -, fields, -, repository, -, -, validRepository, environmentVariable, -, -,
    validVariable,
    services, -, -, disjoint, rfl⟩ := loaded
  rw [Bool.and_eq_true] at validRepository
  rw [decide_eq_true_eq] at disjoint
  exact ⟨⟨validRepository.1, validVariable, disjoint.1⟩, disjoint.2⟩

theorem loadImages_ok {rawImages : List (String × Json)} :
    ∀ {configuredServices : List String} {images : List (String × ComposeImageConfig)},
      loadImages configuredServices rawImages = .ok images →
        (∀ entry ∈ images, entry.2.WellFormed ∧
          ∀ service ∈ entry.2.services, service ∉ configuredServices) ∧
        (images.map fun entry => entry.2.services).Pairwise List.Disjoint := by
  induction rawImages with
  | nil =>
      intro configuredServices images loaded
      injection loaded with isNil
      subst isNil
      simp
  | cons rawImage rest inductionHypothesis =>
      intro configuredServices images loaded
      simp only [loadImages, bind_eq_ok, pure_eq_ok] at loaded
      obtain ⟨image, imageLoaded, others, othersLoaded, rfl⟩ := loaded
      have first := loadImage_ok imageLoaded
      have ⟨wellFormed, disjoint⟩ := inductionHypothesis othersLoaded
      constructor
      · intro entry member
        rcases List.mem_cons.mp member with rfl | later
        · exact first
        · refine ⟨(wellFormed entry later).1, fun service isService configured => ?_⟩
          exact (wellFormed entry later).2 service isService (List.mem_append_left _ configured)
      · rw [List.map_cons, List.pairwise_cons]
        refine ⟨?_, disjoint⟩
        intro services member service isFirst isOther
        obtain ⟨entry, later, rfl⟩ := List.mem_map.mp member
        exact (wellFormed entry later).2 service isOther (List.mem_append_right _ isFirst)

/-- The loader gives a service to one image only. It compares no variables. -/
theorem loadReleaseConfig_ok {provider : List (String × Json)} {config : ReleaseConfig}
    (loaded : loadReleaseConfig provider = .ok config) : config.WellFormed := by
  simp only [loadReleaseConfig, bind_eq_ok, requireConfiguration_ok, pure_eq_ok] at loaded
  obtain ⟨releaseVariable, -, -, validVariable, rawImages, -, images, imagesLoaded, -, nonempty,
    rfl⟩ := loaded
  have ⟨wellFormed, disjoint⟩ := loadImages_ok imagesLoaded
  exact {
    releaseVariable := validVariable
    images := fun entry member => (wellFormed entry member).1
    services := disjoint
    nonempty := by simpa using nonempty }

end BubllioCrm.UpdateAgent
