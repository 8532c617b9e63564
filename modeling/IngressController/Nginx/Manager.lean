import IngressController.Library.FileTree
import IngressController.Library.GoString

/-! # Configuration files and reloads

The manager writes its files below `/etc/nginx`. What the test of NGINX says of a tree, the errors
it prints, the result of a reload and the files that cannot be written are parameters of a run.
-/

namespace IngressController.Nginx

/-- A name without slashes, so `path.Join` appends it to a folder. -/
def FileName := { s : String // '/' ∉ s.toList }
deriving DecidableEq

instance : Coe FileName String := ⟨Subtype.val⟩

def mainConfFilename : String := "/etc/nginx/nginx.conf"

def defaultServerConfFilename : String := "/etc/nginx/conf.d/_default-server.conf"

def configVersionFilename : String := "/etc/nginx/config-version.conf"

def tlsPassthroughHostsFilename : String := "/etc/nginx/tls-passthrough-hosts.conf"

variable (name : FileName)

def getFilenameForConfig : String := "/etc/nginx/conf.d/" ++ name ++ ".conf"

def getFilenameForOIDCConfig : String :=
  "/etc/nginx/oidc-conf.d/" ++ name ++ ".conf"

def getFilenameForStreamConfig : String :=
  "/etc/nginx/stream-conf.d/" ++ name ++ ".conf"

/-- The environment of a run. The texts of errors are numbered by the tests made so far, the orders
of loops over maps too, and the reloads by their version. -/
structure Host where
  passes : FileTree → Bool
  errorText : Nat → FileTree → String := fun _ _ => ""
  reloadError : Nat → FileTree → Option String := fun _ _ => none
  writable : FileTree → String → Bool := fun _ _ => true
  order : IterOrder Nat String := .asGiven

/-- Every file can be written. -/
def Host.IsWritable (host : Host) : Prop := ∀ files path, host.writable files path = true

structure BatchExclusion where
  configPath : String
  resourceName : String
  error : String

/-- The state of a `ConfigRollbackManager`, with the files on disk and those NGINX last loaded. -/
structure ConfigRollbackManager where
  files : FileTree
  loaded : FileTree
  tests : Nat := 0
  configVersion : Nat := 0
  initialDefaultServerPending : Bool := true
  batchMode : Bool := false
  batchFiles : GoMap String := ∅
  batchExcluded : List BatchExclusion := []
  preBatchDefaultServer : Option String := none

/-- How a call ends: with a result, with an error, or with the process (`nl.Fatalf`). -/
inductive Outcome where
  | returned (changed : Bool)
  | failed (err : String)
  | exited
deriving DecidableEq

namespace ConfigRollbackManager

variable (host : Host) (cm : ConfigRollbackManager) (path content : String)

/-- `none` is a file that cannot be written. -/
def createFileAndWrite : Option ConfigRollbackManager :=
  if host.writable cm.files path then some { cm with files := cm.files.insert path content }
  else none

def deleteConfig (path : String) : ConfigRollbackManager :=
  { cm with files := (cm.files.remove path).getD cm.files }

def configContentsChanged : Bool := cm.files[path]? ≠ some content

/-- `createConfig` of the `LocalManager`: a write without a test. -/
def createLocalConfig : Outcome × ConfigRollbackManager :=
  match cm.createFileAndWrite host path content with
  | some written => (.returned (cm.configContentsChanged path content), written)
  | none => (.exited, cm)

def createOIDCConfig (name : FileName) (content : String) : Outcome × ConfigRollbackManager :=
  cm.createLocalConfig host (getFilenameForOIDCConfig name) content

def createTLSPassthroughHostsConfig (content : String) : Outcome × ConfigRollbackManager :=
  cm.createLocalConfig host tlsPassthroughHostsFilename content

/-- The error of the test; a passing test has none. -/
def testConfig : Option String × ConfigRollbackManager :=
  (if host.passes cm.files then none else some (host.errorText cm.tests cm.files),
    { cm with tests := cm.tests + 1 })

def generateVersionConfig (configVersion : Nat) : String :=
  "server \x7b\n    listen unix:/var/lib/nginx/nginx-config-version.sock;\n\taccess_log off;\n\n" ++
    "    location /configVersion \x7b\n        return 200 " ++ toString configVersion ++
    ";\n    \x7d\n\x7d\nmap $http_x_expected_config_version $config_version_mismatch \x7b\n\t\"" ++
    toString configVersion ++ "\" \"\";\n\tdefault \"mismatch\";\n\x7d"

def updateConfigVersionFile : Option ConfigRollbackManager :=
  cm.createFileAndWrite host configVersionFilename (generateVersionConfig cm.configVersion)

/-- NGINX keeps what it has loaded if the new configuration is invalid, and the new version is never
seen. -/
def reload : Outcome × ConfigRollbackManager :=
  match ({ cm with configVersion := cm.configVersion + 1 } :
      ConfigRollbackManager).updateConfigVersionFile host with
  | none => (.exited, { cm with configVersion := cm.configVersion + 1 })
  | some written =>
    match host.reloadError written.configVersion written.files, host.passes written.files with
    | none, true => (.returned true, { written with loaded := written.files })
    | none, false => (.failed "could not get newest config version", written)
    | some err, _ => (.failed err, written)

variable (files : FileTree) (tests : Nat)

def update : ConfigRollbackManager :=
  { cm with files := files, tests := tests }

@[simp] theorem files_update : (cm.update files tests).files = files := rfl

@[simp] theorem tests_update : (cm.update files tests).tests = tests := rfl

@[simp] theorem update_update (files files' : FileTree) (tests tests' : Nat) :
    (cm.update files tests).update files' tests' = cm.update files' tests' := rfl

variable {host cm}

theorem createFileAndWrite_of_writable (h : host.IsWritable) (path content : String) :
    cm.createFileAndWrite host path content =
      some (cm.update (cm.files.insert path content) cm.tests) := by
  rw [createFileAndWrite, if_pos (h cm.files path)]
  rfl

theorem testConfig_of_passes (h : host.passes cm.files = true) :
    cm.testConfig host = (none, cm.update cm.files (cm.tests + 1)) := by
  rw [testConfig, if_pos h]
  rfl

theorem testConfig_of_fails (h : host.passes cm.files = false) :
    cm.testConfig host =
      (some (host.errorText cm.tests cm.files), cm.update cm.files (cm.tests + 1)) := by
  rw [testConfig, if_neg (by simp [h])]
  rfl

theorem deleteConfig_eq (path : String) :
    cm.deleteConfig path = cm.update (cm.files.erase path) cm.tests := by
  unfold deleteConfig FileTree.remove
  split
  · rfl
  · rename_i h
    rw [FileTree.erase_of_not_mem h]
    rfl

theorem reload_spec (h : host.IsWritable) :
    ∃ outcome loaded, outcome ≠ .exited ∧ cm.reload host = (outcome,
      { cm with
        configVersion := cm.configVersion + 1
        files := cm.files.insert configVersionFilename
          (generateVersionConfig (cm.configVersion + 1))
        loaded := loaded }) := by
  rw [reload, updateConfigVersionFile, createFileAndWrite_of_writable h]
  dsimp only
  split <;> exact ⟨_, _, Outcome.noConfusion, rfl⟩

end ConfigRollbackManager

end IngressController.Nginx
