import IngressController.Api.Meta
import IngressController.Library.JoinedText
import IngressController.Nginx.Manager

/-! # Names of files

The files of an object are named after its namespace and its name.
-/

namespace IngressController.Configs

open Nginx GoString String

/-- A text without slashes between a namespace and a name. -/
def joinNames (head separator : String) (m : ObjectMeta)
    (hhead : '/' ∉ (head ++ separator).toList) : FileName :=
  ⟨head ++ m.nspace.val ++ separator ++ m.name.val, by
    have hslash : isNameChar '/' = false := by decide
    simp only [toList_append, List.mem_append, not_or] at hhead ⊢
    exact ⟨⟨⟨hhead.1, m.nspace.not_mem hslash⟩, hhead.2⟩, m.name.not_mem hslash⟩⟩

variable (m : ObjectMeta)

def objectMetaToFileName : FileName := joinNames "" "-" m (by decide)

def getFileNameForVirtualServer : FileName := joinNames "vs_" "_" m (by decide)

def getFileNameForOIDCVirtualServer : FileName :=
  joinNames "oidc_" "_" m (by decide)

def getFileNameForTransportServer : FileName := joinNames "ts_" "_" m (by decide)

variable (key : String)

def keyToFileName : FileName :=
  ⟨replaceAll key '/' '-', not_mem_replaceAll (by decide) key⟩

/-- A key below a text without slashes. -/
def fileNameFromKey (head key : String) (hhead : '/' ∉ head.toList) : FileName :=
  ⟨head ++ replaceAll key '/' '_', by
    rw [toList_append, List.mem_append, not_or]
    exact ⟨hhead, not_mem_replaceAll (by decide) key⟩⟩

def getFileNameForVirtualServerFromKey : FileName :=
  fileNameFromKey "vs_" key (by decide)

def getFileNameForTransportServerFromKey : FileName :=
  fileNameFromKey "ts_" key (by decide)

variable (m : ObjectMeta)

theorem replaceAll_getResourceKey (d : Char) :
    replaceAll (getResourceKey m) '/' d = m.nspace.val ++ singleton d ++ m.name.val := by
  have hslash : isNameChar '/' = false := by decide
  rw [getResourceKey, replaceAll_append, replaceAll_append,
    replaceAll_of_not_mem (m.nspace.not_mem hslash), replaceAll_of_not_mem (m.name.not_mem hslash)]
  rfl

theorem keyToFileName_getResourceKey :
    keyToFileName (getResourceKey m) = objectMetaToFileName m := by
  apply Subtype.ext
  change replaceAll _ _ _ = "" ++ m.nspace.val ++ "-" ++ m.name.val
  rw [replaceAll_getResourceKey, empty_append]
  rfl

theorem getFileNameForVirtualServerFromKey_getResourceKey :
    getFileNameForVirtualServerFromKey (getResourceKey m) = getFileNameForVirtualServer m := by
  apply Subtype.ext
  change "vs_" ++ replaceAll _ _ _ = "vs_" ++ m.nspace.val ++ "_" ++ m.name.val
  rw [replaceAll_getResourceKey, ← append_assoc, ← append_assoc]
  rfl

theorem getFileNameForTransportServerFromKey_getResourceKey :
    getFileNameForTransportServerFromKey (getResourceKey m) = getFileNameForTransportServer m := by
  apply Subtype.ext
  change "ts_" ++ replaceAll _ _ _ = "ts_" ++ m.nspace.val ++ "_" ++ m.name.val
  rw [replaceAll_getResourceKey, ← append_assoc, ← append_assoc]
  rfl

def defaultServerConfigName : FileName := ⟨"_default-server", by decide⟩

theorem getFilenameForConfig_defaultServer :
    getFilenameForConfig defaultServerConfigName = defaultServerConfFilename := by decide

/-- The folders of App Protect and App Protect DoS. -/
inductive ProtectFolder where
  | policies | logConfs | userSigs | dosPolicies | dosLogConfs | dosAllowList

def ProtectFolder.path : ProtectFolder → String
  | policies => "/etc/nginx/waf/nac-policies/"
  | logConfs => "/etc/nginx/waf/nac-logconfs/"
  | userSigs => "/etc/nginx/waf/nac-usersigs/"
  | dosPolicies => "/etc/nginx/dos/policies/"
  | dosLogConfs => "/etc/nginx/dos/logconfs/"
  | dosAllowList => "/etc/nginx/dos/allowlist/"

structure ProtectFile where
  folder : ProtectFolder
  name : String
  content : String

def ProtectFile.path (f : ProtectFile) : String := f.folder.path ++ f.name

theorem ne_of_letter {p q : String} {n : Nat} {c d : Char} (h : c ≠ d) (hp : p.toList[n]? = some c)
    (hq : q.toList[n]? = some d) : p ≠ q := by
  intro heq
  rw [heq, hq] at hp
  exact h (Option.some.inj hp).symm

theorem letter_of_append {head : String} {n : Nat} {c : Char} (h : head.toList[n]? = some c)
    (rest : String) : (head ++ rest).toList[n]? = some c := by
  obtain ⟨hlt, -⟩ := List.getElem?_eq_some_iff.mp h
  rw [toList_append, List.getElem?_append_left hlt, h]

variable (name : FileName)

theorem letter_conf : (getFilenameForConfig name).toList[11]? = some 'c' :=
  letter_of_append (letter_of_append (by decide) _) _

theorem getFilenameForConfig_ne_version : getFilenameForConfig name ≠ configVersionFilename := by
  have h : (getFilenameForConfig name).toList[15]? = some '.' :=
    letter_of_append (letter_of_append (by decide) _) _
  exact ne_of_letter (show '.' ≠ 'i' by decide) h (by decide)

theorem letter_oidcConf : (getFilenameForOIDCConfig name).toList[11]? = some 'o' :=
  letter_of_append (letter_of_append (by decide) _) _

theorem letter_streamConf : (getFilenameForStreamConfig name).toList[11]? = some 's' :=
  letter_of_append (letter_of_append (by decide) _) _

theorem letter_protectFolder (folder : ProtectFolder) :
    folder.path.toList[11]? = some 'w' ∨ folder.path.toList[11]? = some 'd' := by
  cases folder <;> decide

theorem letter_protect (f : ProtectFile) :
    f.path.toList[11]? = some 'w' ∨ f.path.toList[11]? = some 'd' :=
  (letter_protectFolder f.folder).imp (fun h => letter_of_append h f.name)
    fun h => letter_of_append h f.name

variable {name name' : FileName}

theorem affixed_inj {head tail : String}
    (h : head ++ name.val ++ tail = head ++ name'.val ++ tail) : name = name' :=
  Subtype.ext ((append_right_inj _).mp ((append_left_inj _).mp h))

theorem getFilenameForConfig_inj
    (h : getFilenameForConfig name = getFilenameForConfig name') : name = name' :=
  affixed_inj h

theorem getFilenameForOIDCConfig_inj
    (h : getFilenameForOIDCConfig name = getFilenameForOIDCConfig name') : name = name' :=
  affixed_inj h

theorem getFilenameForStreamConfig_inj
    (h : getFilenameForStreamConfig name = getFilenameForStreamConfig name') : name = name' :=
  affixed_inj h

/-- Underscores do not occur in the names they join. -/
theorem joinNames_inj {head : String} {m m' : ObjectMeta} {hhead : '/' ∉ (head ++ "_").toList}
    (h : joinNames head "_" m hhead = joinNames head "_" m' hhead) :
    m.nspace = m'.nspace ∧ m.name = m'.name := by
  have hscore : isNameChar '_' = false := by decide
  have hval : head ++ m.nspace.val ++ "_" ++ m.name.val =
      head ++ m'.nspace.val ++ "_" ++ m'.name.val := congrArg Subtype.val h
  rw [append_assoc, append_assoc, append_assoc, append_assoc,
    append_right_inj, ← append_assoc, ← append_assoc,
    JoinedText.join_inj (show "_".toList = ['_'] by decide) (m.nspace.not_mem hscore)
      (m'.nspace.not_mem hscore)] at hval
  exact ⟨Subtype.ext hval.1, Subtype.ext hval.2⟩

theorem getFileNameForVirtualServer_ne_default :
    getFileNameForVirtualServer m ≠ defaultServerConfigName := by
  intro h
  have hhead : (getFileNameForVirtualServer m).val.toList.head? = some 'v' := by
    change ("vs_" ++ m.nspace.val ++ "_" ++ m.name.val).toList.head? = some 'v'
    simp [toList_append]
  rw [h] at hhead
  exact absurd hhead (by decide)

end IngressController.Configs
