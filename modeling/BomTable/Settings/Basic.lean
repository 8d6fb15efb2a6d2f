import BomTable.Json.Reader
import BomTable.Publish.Configuration
import BomTable.Settings.Value

/-!
The settings of the program. A setting that a caller gives wins over one in the environment, and
that over the default. The case of their names does not matter; in the environment the names have a
common beginning.
-/

namespace BomTable

/-- Where settings come from. -/
structure Sources where
  environment : List (String × String)
  given : List (String × Json)
deriving Inhabited

namespace Sources

/-- The last variable with a name, in letters of any case. -/
def written? (s : Sources) (name : String) : Option String :=
  (s.environment.reverse.find? fun v => v.1.toLower = name).map (·.2)

/-- What a caller gives under a name; what is given in small letters wins over the same name in
others. -/
def given? (s : Sources) (name : String) : Option Json :=
  (Dict.find? s.given name).orElse fun _ =>
    (s.given.reverse.find? fun g => g.1.toLower = name).map (·.2)

/-- What is said about a setting whose variable begins in a certain way. -/
def find? (s : Sources) (beginning name : String) : Option Json :=
  (s.given? name).orElse fun _ => (s.written? (beginning ++ name)).map .text

/-- The setting, its default where nothing is said, or nothing where what is said makes no sense. -/
def read {α : Type} (s : Sources) (beginning name : String) (default : α)
    (value? : Json → Option α) : Option α :=
  match s.find? beginning name with
  | some j => value? j
  | none => some default

end Sources

/-- The names of the settings that make no sense, and of the items of one that do not. -/
def invalidNames (checks : List (String × Bool)) (items : List String) : List String :=
  Text.ascending id ((checks.filter fun c => !c.2).map (·.1) ++ items)

structure Settings where
  logLevel : Level
  logJson : Bool
  repositoryUrls : List String
  localRepository : Option String
  timeout : Float
  userAgent : String
  cacheSize : Int
  maxDepth : Int
deriving Inhabited

namespace Settings

def beginning : String := "dependency_management_"

/-- The address of the public repository. -/
def centralUrl : String := "https://repo.maven.apache.org/maven2"

def level? : Json → Option Level
  | .text s => [Level.debug, .info, .warning, .error, .critical].find? fun l => l.name = s
  | _ => none

/-- What a variable says that holds a structured value; null says nothing. -/
def structured? (written : Option String) : Except Failure (Option Json) :=
  match written.map Json.read? with
  | none => .ok none
  | some none => .error .unstructuredSetting
  | some (some .null) => .ok none
  | some (some j) => .ok (some j)

/-- What is said about the addresses of repositories, which the environment has as a structured
value. -/
def urls (s : Sources) : Except Failure Json := do
  let said ← structured? (s.written? (beginning ++ "repository_urls"))
  return ((s.given? "repository_urls").orElse fun _ => said).getD (.list [.text centralUrl])

/-- The settings from their sources, if all of them make sense. -/
def ofSources (s : Sources) : Except Failure Settings := do
  let urls ← urls s
  let localRepository := s.read beginning "local_repository" none Setting.optionalText?
  let logJson := s.read beginning "log_json" false Setting.bool?
  let logLevel := s.read beginning "log_level" Level.info level?
  let maxDepth := s.read beginning "max_import_depth" Resolver.defaultMaxDepth Setting.int?
  let timeout := s.read beginning "request_timeout_seconds" 30.0 Setting.float?
  let cacheSize := s.read beginning "resolution_cache_size" Resolver.defaultCacheSize Setting.int?
  let userAgent := s.read beginning "user_agent" "dependency-management" Setting.text?
  match Setting.texts? urls, localRepository, logJson, logLevel, maxDepth, timeout, cacheSize,
      userAgent with
  | some repositoryUrls, some localRepository, some logJson, some logLevel, some maxDepth,
      some timeout, some cacheSize, some userAgent =>
    return {
      logLevel, logJson, repositoryUrls, localRepository, timeout, userAgent, cacheSize, maxDepth }
  | _, _, _, _, _, _, _, _ =>
    throw (.invalidSettings (invalidNames
      [("local_repository", localRepository.isSome), ("log_json", logJson.isSome),
        ("log_level", logLevel.isSome), ("max_import_depth", maxDepth.isSome),
        ("request_timeout_seconds", timeout.isSome),
        ("resolution_cache_size", cacheSize.isSome), ("user_agent", userAgent.isSome)]
      (Setting.faultyTexts "repository_urls" urls)))

/-- An address whose answers anybody on the way can change. -/
def isOpen (url : String) : Bool := "http://".toList.isPrefixOf url.toList

/-- What is allowed but hardly meant. -/
def warnings (s : Settings) : List String :=
  (if s.repositoryUrls.isEmpty && (Text.nonempty? s.localRepository).isNone then
      ["No repositories are configured - BOM imports cannot be resolved"]
    else []) ++
    (s.repositoryUrls.filter isOpen).map
      (fun url => "Repository " ++ url ++ " is not using HTTPS") ++
    (if s.timeout ≤ 0 then ["Request timeout must be positive"] else []) ++
    (if s.cacheSize < 0 then ["Resolution cache size must not be negative"] else [])

/-- How the addresses of repositories are asked. -/
def asking (s : Settings) : Asking := ⟨Text.nonempty? (some s.userAgent), s.timeout⟩

def directories (s : Settings) (disk : Disk) : List Client :=
  (Text.nonempty? s.localRepository).toList.map fun root => .directory (.read root) disk

def remotes (s : Settings) (web : Asking → Web) : List Client :=
  if s.repositoryUrls.isEmpty then []
  else [.atUrls s.repositoryUrls (some s.userAgent) (web s.asking)]

/-- The repositories that the settings name; a directory is searched before addresses. -/
def client (s : Settings) (disk : Disk) (web : Asking → Web) : Client :=
  match s.directories disk ++ s.remotes web with
  | [c] => c
  | cs => .several cs

end Settings

namespace Customization

def beginning : String := "dependency_management_pom_"

def action? : Json → Option BomAction
  | .text "import" => some .importing
  | .text "copy" => some .copying
  | _ => none

/-- The settings for publishing from their sources, if all of them make sense. -/
def ofSources (s : Sources) : Except Failure Customization :=
  let enabled := s.read beginning "enabled" true Setting.bool?
  let action := s.read beginning "imported_bom_action" BomAction.importing action?
  match enabled, action with
  | some enabled, some action => .ok ⟨enabled, action⟩
  | _, _ =>
    .error (.invalidSettings (invalidNames
      [("enabled", enabled.isSome), ("imported_bom_action", action.isSome)] []))

end Customization

end BomTable
