import IngressController.Annotations.Values
import IngressController.Annotations.Wallarm
import IngressController.Api.Networking
import IngressController.Validation.Buffers

/-! # Annotations of an Ingress

`parseAnnotations` of `internal/configs/annotations.go`: one step for every annotation, in the
order of the source. A step is in `Option`, where `none` is a panic; a rejected value is only
logged. `ConfigParams` has the fields the steps write.
-/

namespace IngressController.Configs

open GoString Validation Prod

structure ConfigParams where
  lbMethod : String := ""
  healthCheckEnabled : Bool := false
  healthCheckMandatory : Bool := false
  healthCheckMandatoryQueue : Int := 0
  slowStart : String := ""
  serverTokens : String := ""
  serverSnippets : List String := []
  locationSnippets : List String := []
  addHeaderInherit : String := ""
  proxyConnectTimeout : String := ""
  proxyReadTimeout : String := ""
  proxySendTimeout : String := ""
  proxyHideHeaders : List String := []
  proxyPassHeaders : List String := []
  proxySetHeaders : List Header := []
  addHeaders : List AddHeader := []
  proxyNextUpstream : String := ""
  proxyNextUpstreamTimeout : String := ""
  proxyNextUpstreamTries : Option Nat := none
  clientMaxBodySize : String := ""
  clientBodyBufferSize : String := ""
  redirectToHTTPS : Bool := false
  sslRedirect : Bool := false
  httpRedirectCode : Int := 0
  serverSSLCiphers : String := ""
  serverSSLPreferServerCiphers : Bool := false
  proxyBuffering : Bool := false
  hsts : Bool := false
  hstsMaxAge : Int := 0
  hstsIncludeSubdomains : Bool := false
  hstsBehindProxy : Bool := false
  proxyBuffers : String := ""
  proxyBufferSize : String := ""
  proxyBusyBuffersSize : String := ""
  upstreamZoneSize : String := ""
  proxyMaxTempFileSize : String := ""
  proxyRedirectFrom : String := ""
  proxyRedirectTo : String := ""
  customHTTPErrors : List Nat := []
  jwtRealm : String := ""
  jwtKey : String := ""
  jwtToken : String := ""
  jwtLoginURL : String := ""
  basicAuthSecret : String := ""
  basicAuthRealm : String := ""
  ports : List Int := []
  sslPorts : List Int := []
  keepalive : Int := 0
  maxFails : Int := 0
  maxConns : Int := 0
  failTimeout : String := ""
  appProtectEnable : String := ""
  appProtectLogEnable : String := ""
  appProtectDosResource : String := ""
  wallarmMode : String := ""
  wallarmModeAllowOverride : String := ""
  wallarmFallback : String := ""
  wallarmApplication : String := ""
  wallarmPartnerClientUUID : String := ""
  wallarmBlockPage : String := ""
  wallarmParseResponse : String := ""
  wallarmParseWebsocket : String := ""
  wallarmUnpackResponse : String := ""
  wallarmParserDisable : List String := []
  appRoot : String := ""
  useClusterIP : Bool := false
  limitReqRate : String := ""
  limitReqKey : String := ""
  limitReqZoneSize : String := ""
  limitReqDelay : Int := 0
  limitReqNoDelay : Bool := false
  limitReqBurst : Int := 0
  limitReqDryRun : Bool := false
  limitReqLogLevel : String := ""
  limitReqRejectCode : Int := 0
  limitReqScale : Bool := false

abbrev Setting := ConfigParams → Option ConfigParams

section Steps

variable (annotations : GoMap String) (key : String)

def taken (set : String → ConfigParams → ConfigParams) : Setting := fun p =>
  some (match annotations[key]? with
    | some value => set value p
    | none => p)

/-- A value that is parsed; a rejected one changes nothing. -/
def parsed {α : Type} (key : String) (parse : String → Option (Option α))
    (set : α → ConfigParams → ConfigParams) : Setting := fun p =>
  match annotations[key]? with
  | none => some p
  | some value => (parse value).map fun
      | some a => set a p
      | none => p

/-- `GetMapKeyAsBool` where an error changes nothing. -/
def parsedBool (set : Bool → ConfigParams → ConfigParams) : Setting :=
  parsed annotations key (fun value => some (parseBool value)) set

/-- `GetMapKeyAsInt` and `GetMapKeyAsInt64` where an error changes nothing. -/
def parsedInt (set : Int → ConfigParams → ConfigParams) : Setting :=
  parsed annotations key (fun value => some (parseInt value.toList)) set

def checked (valid : String → Bool) (set : String → ConfigParams → ConfigParams) : Setting :=
  parsed annotations key (fun value => some (if valid value then some value else none)) set

/-- The value parsed as a bool, and whether it failed, as `GetMapKeyAsBool` returns them. -/
def getMapKeyAsBool : Option (Bool × Bool) :=
  annotations[key]?.map fun value =>
    match parseBool value with
    | some b => (b, false)
    | none => (false, true)

def getMapKeyAsInt64 : Option (Int × Bool) :=
  annotations[key]?.map fun value =>
    match parseInt value.toList with
    | some i => (i, false)
    | none => (0, true)

/-! A step that cannot panic. -/

def Total (step : Setting) : Prop := ∀ p, (step p).isSome

variable (key : String)

@[simp] theorem total_taken (set : String → ConfigParams → ConfigParams) :
    Total (taken annotations key set) := fun _ => rfl

variable {α : Type}

theorem isSome_parsed_iff (parse : String → Option (Option α))
    (set : α → ConfigParams → ConfigParams) (p : ConfigParams) :
    (parsed annotations key parse set p).isSome ↔
      ∀ value ∈ annotations[key]?, (parse value).isSome := by
  unfold parsed
  cases annotations[key]? <;> simp

theorem total_parsed {key : String} {parse : String → Option (Option α)}
    {set : α → ConfigParams → ConfigParams} (h : ∀ value, (parse value).isSome) :
    Total (parsed annotations key parse set) := fun p =>
  (isSome_parsed_iff annotations key parse set p).mpr fun value _ => h value

@[simp] theorem total_parsed_some (parse : String → Option α)
    (set : α → ConfigParams → ConfigParams) :
    Total (parsed annotations key (fun value => some (parse value)) set) :=
  total_parsed annotations fun _ => rfl

@[simp] theorem total_parsed_parseTime (set : String → ConfigParams → ConfigParams) :
    Total (parsed annotations key parseTime set) :=
  total_parsed annotations fun value => by rw [parseTime_eq, Option.isSome_some]

@[simp] theorem total_parsedBool (set : Bool → ConfigParams → ConfigParams) :
    Total (parsedBool annotations key set) := total_parsed_some annotations key parseBool set

@[simp] theorem total_parsedInt (set : Int → ConfigParams → ConfigParams) :
    Total (parsedInt annotations key set) :=
  total_parsed_some annotations key (fun value => parseInt value.toList) set

@[simp] theorem total_checked (valid : String → Bool) (set : String → ConfigParams → ConfigParams) :
    Total (checked annotations key valid set) :=
  total_parsed_some annotations key (fun value => if valid value then some value else none) set

/-- Plus only; an invalid value disables the checks. -/
def parseHealthChecks (isPlus : Bool) : Setting := fun p =>
  let p := match getMapKeyAsBool annotations "nginx.com/health-checks" with
    | some (healthCheckEnabled, _) => if isPlus then { p with healthCheckEnabled } else p
    | none => p
  let p := if p.healthCheckEnabled then
      match getMapKeyAsBool annotations "nginx.com/health-checks-mandatory" with
      | some (healthCheckMandatory, _) => { p with healthCheckMandatory }
      | none => p
    else p
  some (if p.healthCheckMandatory then
      match getMapKeyAsInt64 annotations "nginx.com/health-checks-mandatory-queue" with
      | some (healthCheckMandatoryQueue, _) => { p with healthCheckMandatoryQueue }
      | none => p
    else p)

/-- With Plus, a value that is no bool is a text for the server token. -/
def parseServerTokens (isPlus : Bool) : Setting := fun p =>
  some (match annotations["nginx.org/server-tokens"]? with
    | none => p
    | some value =>
      match parseBool value with
      | some serverTokens => { p with serverTokens := if serverTokens then "on" else "off" }
      | none => if isPlus then { p with serverTokens := value } else p)

def parseSSLRedirect : Setting :=
  if (annotations["nginx.org/ssl-redirect"]?).isSome then
    parsedBool annotations "nginx.org/ssl-redirect" fun sslRedirect p => { p with sslRedirect }
  else
    parsedBool annotations "ingress.kubernetes.io/ssl-redirect"
      fun sslRedirect p => { p with sslRedirect }

/-- An invalid value of one annotation skips all of them. -/
def parseHSTS : Setting := fun p =>
  match (annotations["nginx.org/hsts"]?).bind parseBool with
  | none => some p
  | some hsts =>
    let maxAge := getMapKeyAsInt64 annotations "nginx.org/hsts-max-age"
    let includeSubdomains := getMapKeyAsBool annotations "nginx.org/hsts-include-subdomains"
    let behindProxy := getMapKeyAsBool annotations "nginx.org/hsts-behind-proxy"
    let parsingErrors := (maxAge.any snd) || (includeSubdomains.any snd) ||
      (behindProxy.any snd)
    some (if parsingErrors then p
      else
        { p with
          hsts
          hstsMaxAge := (maxAge.map fst).getD p.hstsMaxAge
          hstsIncludeSubdomains :=
            (includeSubdomains.map fst).getD p.hstsIncludeSubdomains
          hstsBehindProxy := (behindProxy.map fst).getD p.hstsBehindProxy })

def balanceBuffers (enableDirectiveAutoadjust : Bool) : Setting := fun p =>
  if enableDirectiveAutoadjust then
    let (buffers, size, busy) := balanceProxyValues p.proxyBuffers.toList
      p.proxyBufferSize.toList p.proxyBusyBuffersSize.toList enableDirectiveAutoadjust
    some { p with
      proxyBuffers := String.ofList buffers
      proxyBufferSize := String.ofList size
      proxyBusyBuffersSize := String.ofList busy }
  else some p

/-- The number is written also after an error. -/
def parseProxyNextUpstreamTries : Setting := fun p =>
  some (match annotations["nginx.org/proxy-next-upstream-tries"]? with
    | none => p
    | some value =>
      { p with proxyNextUpstreamTries := some ((parseUint value.toList).getD 0) })

/-- The size is written also after an error. -/
def parseClientBodyBufferSize : Setting := fun p =>
  some (match annotations["nginx.org/client-body-buffer-size"]? with
    | none => p
    | some value => { p with clientBodyBufferSize := (parseSize value).getD "" })

/-- Settings for Plus and App Protect only. -/
def onlyIf (enabled : Bool) (settings : List Setting) : List Setting :=
  if enabled then settings else []

variable (lib : Libraries)

/-- The annotations before those of Wallarm. -/
def nginxSettings (isPlus hasAppProtect hasAppProtectDos enableDirectiveAutoadjust : Bool) :
    List Setting :=
  [parsed annotations "nginx.org/lb-method"
      (fun value => (if isPlus then parseLBMethodForPlus lib value
        else parseLBMethod lib value).map Except.toOption)
      fun lbMethod p => { p with lbMethod },
    parseHealthChecks annotations isPlus,
    parsed annotations "nginx.com/slow-start" parseTime
      fun slowStart p => if isPlus then { p with slowStart } else p,
    parseServerTokens annotations isPlus,
    taken annotations "nginx.org/server-snippets"
      fun value p => { p with serverSnippets := split value '\n' },
    taken annotations "nginx.org/location-snippets"
      fun value p => { p with locationSnippets := split value '\n' },
    parsed annotations "nginx.org/add-header-inherit"
      (fun value => some (parseAddHeaderInherit value).toOption)
      fun addHeaderInherit p => { p with addHeaderInherit },
    parsed annotations "nginx.org/proxy-connect-timeout" parseTime
      fun proxyConnectTimeout p => { p with proxyConnectTimeout },
    parsed annotations "nginx.org/proxy-read-timeout" parseTime
      fun proxyReadTimeout p => { p with proxyReadTimeout },
    parsed annotations "nginx.org/proxy-send-timeout" parseTime
      fun proxySendTimeout p => { p with proxySendTimeout },
    parsed annotations "nginx.org/proxy-hide-headers"
      (fun value => some (parseHeaderList lib value))
      fun proxyHideHeaders p => { p with proxyHideHeaders },
    parsed annotations "nginx.org/proxy-pass-headers"
      (fun value => some (parseHeaderList lib value))
      fun proxyPassHeaders p => { p with proxyPassHeaders },
    parsed annotations "nginx.org/proxy-set-headers"
      (fun value => (parseProxySetHeaders value).map some)
      fun proxySetHeaders p => { p with proxySetHeaders },
    parsed annotations "nginx.org/add-header" (fun value => (parseAddHeaders value).map some)
      fun addHeaders p => { p with addHeaders },
    taken annotations "nginx.org/proxy-next-upstream" fun value p =>
      { p with proxyNextUpstream :=
          String.ofList ([' '].intercalate (fields value.toList)) },
    parsed annotations "nginx.org/proxy-next-upstream-timeout" parseTime
      fun proxyNextUpstreamTimeout p => { p with proxyNextUpstreamTimeout },
    parseProxyNextUpstreamTries annotations,
    taken annotations "nginx.org/client-max-body-size"
      fun clientMaxBodySize p => { p with clientMaxBodySize },
    parseClientBodyBufferSize annotations,
    parsedBool annotations "nginx.org/redirect-to-https"
      fun redirectToHTTPS p => { p with redirectToHTTPS },
    parseSSLRedirect annotations,
    parsed annotations "nginx.org/http-redirect-code"
      (fun value => some (parseHTTPRedirectCode value))
      fun httpRedirectCode p => { p with httpRedirectCode },
    taken annotations "nginx.org/ssl-ciphers"
      fun serverSSLCiphers p => { p with serverSSLCiphers },
    parsedBool annotations "nginx.org/ssl-prefer-server-ciphers"
      fun serverSSLPreferServerCiphers p => { p with serverSSLPreferServerCiphers },
    parsedBool annotations "nginx.org/proxy-buffering"
      fun proxyBuffering p => { p with proxyBuffering },
    parseHSTS annotations,
    taken annotations "nginx.org/proxy-buffers" fun proxyBuffers p => { p with proxyBuffers },
    taken annotations "nginx.org/proxy-buffer-size"
      fun proxyBufferSize p => { p with proxyBufferSize },
    taken annotations "nginx.org/proxy-busy-buffers-size"
      fun proxyBusyBuffersSize p => { p with proxyBusyBuffersSize },
    balanceBuffers enableDirectiveAutoadjust,
    taken annotations "nginx.org/upstream-zone-size"
      fun upstreamZoneSize p => { p with upstreamZoneSize },
    taken annotations "nginx.org/proxy-max-temp-file-size"
      fun proxyMaxTempFileSize p => { p with proxyMaxTempFileSize },
    taken annotations "nginx.org/proxy-redirect-from"
      fun proxyRedirectFrom p => { p with proxyRedirectFrom },
    taken annotations "nginx.org/proxy-redirect-to"
      fun proxyRedirectTo p => { p with proxyRedirectTo },
    parsed annotations "nginx.org/custom-http-errors"
      (fun value => some (parseCustomHTTPErrors value))
      fun customHTTPErrors p => { p with customHTTPErrors }] ++
  onlyIf isPlus
    [taken annotations "nginx.com/jwt-realm" fun jwtRealm p => { p with jwtRealm },
      taken annotations "nginx.com/jwt-key" fun jwtKey p => { p with jwtKey },
      taken annotations "nginx.com/jwt-token" fun jwtToken p => { p with jwtToken },
      taken annotations "nginx.com/jwt-login-url" fun jwtLoginURL p => { p with jwtLoginURL }] ++
  [taken annotations "nginx.org/basic-auth-secret"
      fun basicAuthSecret p => { p with basicAuthSecret },
    taken annotations "nginx.org/basic-auth-realm"
      fun basicAuthRealm p => { p with basicAuthRealm },
    -- a list has a port, so the test for an empty list only catches errors
    parsed annotations "nginx.org/listen-ports" (fun value => some (parsePortList value))
      fun ports p => { p with ports },
    parsed annotations "nginx.org/listen-ports-ssl" (fun value => some (parsePortList value))
      fun sslPorts p => { p with sslPorts },
    parsedInt annotations "nginx.org/keepalive" fun keepalive p => { p with keepalive },
    parsedInt annotations "nginx.org/max-fails" fun maxFails p => { p with maxFails },
    parsedInt annotations "nginx.org/max-conns" fun maxConns p => { p with maxConns },
    parsed annotations "nginx.org/fail-timeout" parseTime
      fun failTimeout p => { p with failTimeout }] ++
  onlyIf hasAppProtect
    [parsedBool annotations "appprotect.f5.com/app-protect-enable"
        fun enable p => { p with appProtectEnable := if enable then "on" else "off" },
      parsedBool annotations "appprotect.f5.com/app-protect-security-log-enable"
        fun enable p => { p with appProtectLogEnable := if enable then "on" else "off" }] ++
  onlyIf hasAppProtectDos
    [taken annotations "appprotectdos.f5.com/app-protect-dos-resource"
      fun appProtectDosResource p => { p with appProtectDosResource }]

def wallarmBlockPageAnnotation : String := "nginx.org/wallarm-block-page"

/-- The Wallarm annotations before the block page. -/
def wallarmSettingsBefore : List Setting :=
  [checked annotations "nginx.org/wallarm-mode" isValidWallarmMode
      fun wallarmMode p => { p with wallarmMode },
    checked annotations "nginx.org/wallarm-mode-allow-override" isValidWallarmModeAllowOverride
      fun wallarmModeAllowOverride p => { p with wallarmModeAllowOverride },
    checked annotations "nginx.org/wallarm-fallback" isValidOnOff
      fun wallarmFallback p => { p with wallarmFallback },
    checked annotations "nginx.org/wallarm-application" validateApplicationID
      fun wallarmApplication p => { p with wallarmApplication },
    parsed annotations "nginx.org/wallarm-partner-client-uuid"
      (fun value => (validateWallarmPartnerClientUUID value).map fun err =>
        if err = none then some value else none)
      fun wallarmPartnerClientUUID p => { p with wallarmPartnerClientUUID }]

def parseBlockPage : Setting :=
  parsed annotations wallarmBlockPageAnnotation
    (fun value => (validateBlockPage value).map fun err => if err = none then some value else none)
    fun wallarmBlockPage p => { p with wallarmBlockPage }

/-- The Wallarm annotations after the block page. -/
def wallarmSettingsAfter : List Setting :=
  [checked annotations "nginx.org/wallarm-parse-response" isValidOnOff
      fun wallarmParseResponse p => { p with wallarmParseResponse },
    checked annotations "nginx.org/wallarm-parse-websocket" isValidOnOff
      fun wallarmParseWebsocket p => { p with wallarmParseWebsocket },
    checked annotations "nginx.org/wallarm-unpack-response" isValidOnOff
      fun wallarmUnpackResponse p => { p with wallarmUnpackResponse },
    taken annotations "nginx.org/wallarm-parser-disable" fun value p =>
      { p with wallarmParserDisable := ((split value ',').map fun parser =>
          String.ofList (trimSpace parser.toList)).filter isValidWallarmParser }]

def parseWallarmAnnotations : List Setting :=
  wallarmSettingsBefore annotations ++ parseBlockPage annotations ::
    wallarmSettingsAfter annotations

/-! ## Rate limits and the rest -/

def parseRateLimitAnnotations : List Setting :=
  [parsed annotations "nginx.org/limit-req-rate" parseRequestRate
      fun limitReqRate p => { p with limitReqRate },
    taken annotations "nginx.org/limit-req-key" fun limitReqKey p => { p with limitReqKey },
    parsed annotations "nginx.org/limit-req-zone-size"
      (fun value => some (parseSize value))
      fun limitReqZoneSize p => { p with limitReqZoneSize },
    parsedInt annotations "nginx.org/limit-req-delay"
      fun limitReqDelay p => { p with limitReqDelay },
    parsedBool annotations "nginx.org/limit-req-no-delay"
      fun limitReqNoDelay p => { p with limitReqNoDelay },
    parsedInt annotations "nginx.org/limit-req-burst"
      fun limitReqBurst p => { p with limitReqBurst },
    parsedBool annotations "nginx.org/limit-req-dry-run"
      fun limitReqDryRun p => { p with limitReqDryRun },
    checked annotations "nginx.org/limit-req-log-level"
      (["info", "notice", "warn", "error"].contains ·)
      fun limitReqLogLevel p => { p with limitReqLogLevel },
    parsedInt annotations "nginx.org/limit-req-reject-code"
      fun limitReqRejectCode p => { p with limitReqRejectCode },
    parsedBool annotations "nginx.org/limit-req-scale"
      fun limitReqScale p => { p with limitReqScale }]

/-- The annotations after those of Wallarm; `path-regex` is only checked. -/
def remainingSettings : List Setting :=
  [taken annotations "nginx.org/app-root" fun appRoot p => { p with appRoot },
    parsedBool annotations "nginx.org/use-cluster-ip"
      fun useClusterIP p => { p with useClusterIP }] ++
  parseRateLimitAnnotations annotations

end Steps

def parseAnnotations (lib : Libraries) (ing : Ingress) (baseCfgParams : ConfigParams)
    (isPlus hasAppProtect hasAppProtectDos enableDirectiveAutoadjust : Bool) :
    Option ConfigParams :=
  let annotations := ing.objectMeta.annotations.getD ∅
  GoPanic.runSteps
    (nginxSettings annotations lib isPlus hasAppProtect hasAppProtectDos
      enableDirectiveAutoadjust ++
      parseWallarmAnnotations annotations ++ remainingSettings annotations)
    baseCfgParams

section Panics

variable (annotations : GoMap String) (lib : Libraries)

@[simp] theorem total_parseHSTS : Total (parseHSTS annotations) := by
  intro p
  unfold parseHSTS
  split <;> rfl

@[simp] theorem total_parseSSLRedirect : Total (parseSSLRedirect annotations) := by
  unfold parseSSLRedirect
  split_ifs <;> simp

@[simp] theorem total_balanceBuffers (autoadjust : Bool) : Total (balanceBuffers autoadjust) := by
  intro p
  unfold balanceBuffers
  split_ifs <;> rfl

@[simp] theorem total_lbMethod (isPlus : Bool) (set : String → ConfigParams → ConfigParams) :
    Total (parsed annotations "nginx.org/lb-method"
      (fun value => (if isPlus then parseLBMethodForPlus lib value
        else parseLBMethod lib value).map Except.toOption) set) := by
  refine total_parsed annotations fun value => ?_
  cases isPlus <;> simp [parseLBMethod, parseLBMethodForPlus, parseLBMethodAmong_eq]

theorem total_onlyIf {enabled : Bool} {settings : List Setting}
    (h : ∀ step ∈ settings, Total step) : ∀ step ∈ onlyIf enabled settings, Total step := by
  cases enabled with
  | false => simp [onlyIf]
  | true => exact h

theorem total_nginxSettings
    (isPlus hasAppProtect hasAppProtectDos enableDirectiveAutoadjust : Bool) :
    ∀ step ∈ nginxSettings annotations lib isPlus hasAppProtect hasAppProtectDos
      enableDirectiveAutoadjust, Total step := by
  have hset : Total (parsed annotations "nginx.org/proxy-set-headers"
      (fun value => (parseProxySetHeaders value).map some)
      fun proxySetHeaders p => { p with proxySetHeaders }) :=
    total_parsed annotations fun value => by simpa using isSome_parseProxySetHeaders value
  have hadd : Total (parsed annotations "nginx.org/add-header"
      (fun value => (parseAddHeaders value).map some) fun addHeaders p => { p with addHeaders }) :=
    total_parsed annotations fun value => by simpa using isSome_parseAddHeaders value
  have hhealth : Total (parseHealthChecks annotations isPlus) := fun p => rfl
  have htokens : Total (parseServerTokens annotations isPlus) := fun p => rfl
  have htries : Total (parseProxyNextUpstreamTries annotations) := fun p => rfl
  have hbody : Total (parseClientBodyBufferSize annotations) := fun p => rfl
  unfold nginxSettings
  simp only [List.forall_mem_append]
  refine ⟨⟨⟨⟨?_, total_onlyIf ?_⟩, ?_⟩, total_onlyIf ?_⟩, total_onlyIf ?_⟩
  all_goals simp [hset, hadd, hhealth, htokens, htries, hbody]

theorem total_wallarmSettingsBefore :
    ∀ step ∈ wallarmSettingsBefore annotations, Total step := by
  have huuid : Total (parsed annotations "nginx.org/wallarm-partner-client-uuid"
      (fun value => (validateWallarmPartnerClientUUID value).map fun err =>
        if err = none then some value else none)
      fun wallarmPartnerClientUUID p => { p with wallarmPartnerClientUUID }) :=
    total_parsed annotations fun value => by
      simpa using (Validation.partnerClientUUID_spec value "").2.1
  simp [wallarmSettingsBefore, huuid]

theorem total_wallarmSettingsAfter :
    ∀ step ∈ wallarmSettingsAfter annotations, Total step := by
  simp [wallarmSettingsAfter]

theorem total_remainingSettings : ∀ step ∈ remainingSettings annotations, Total step := by
  have hrate : Total (parsed annotations "nginx.org/limit-req-rate" parseRequestRate
      fun limitReqRate p => { p with limitReqRate }) :=
    total_parsed annotations isSome_parseRequestRate
  simp [remainingSettings, parseRateLimitAnnotations, hrate]

theorem isSome_parseBlockPage_iff (p : ConfigParams) :
    (parseBlockPage annotations p).isSome ↔
      ∀ value ∈ annotations[ wallarmBlockPageAnnotation]?,
        value = "" ∨ ¬ hasUncheckedPage value := by
  rw [parseBlockPage, isSome_parsed_iff]
  refine forall_congr' fun value => imp_congr_right fun _ => ?_
  rw [Option.isSome_map, Option.isSome_iff_ne_none, ne_eq, validateBlockPage_panic]
  tauto

end Panics

/-- `parseAnnotations` returns exactly if the block page has no unchecked page. -/
theorem isSome_parseAnnotations_iff (lib : Libraries) (ing : Ingress)
    (baseCfgParams : ConfigParams)
    (isPlus hasAppProtect hasAppProtectDos enableDirectiveAutoadjust : Bool) :
    (parseAnnotations lib ing baseCfgParams isPlus hasAppProtect hasAppProtectDos
        enableDirectiveAutoadjust).isSome ↔
      ∀ value ∈ (ing.objectMeta.annotations.getD ∅)[ wallarmBlockPageAnnotation]?,
        value = "" ∨ ¬ hasUncheckedPage value := by
  generalize hannotations : ing.objectMeta.annotations.getD ∅ = annotations
  have hsteps : nginxSettings annotations lib isPlus hasAppProtect hasAppProtectDos
        enableDirectiveAutoadjust ++ parseWallarmAnnotations annotations ++
        remainingSettings annotations =
      (nginxSettings annotations lib isPlus hasAppProtect hasAppProtectDos
        enableDirectiveAutoadjust ++ wallarmSettingsBefore annotations) ++
        parseBlockPage annotations ::
          (wallarmSettingsAfter annotations ++ remainingSettings annotations) := by
    simp [parseWallarmAnnotations]
  rw [parseAnnotations, hannotations, hsteps]
  refine GoPanic.isSome_runSteps_middle ?_ (isSome_parseBlockPage_iff annotations) ?_ _
  · exact List.forall_mem_append.mpr ⟨total_nginxSettings annotations lib _ _ _ _,
      total_wallarmSettingsBefore annotations⟩
  · exact List.forall_mem_append.mpr ⟨total_wallarmSettingsAfter annotations,
      total_remainingSettings annotations⟩

end IngressController.Configs
