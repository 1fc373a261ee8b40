/-
# The requests passed to a web server

`ConnectionsManager/src/CMProcessor.cpp`, `manageHTTPProxyRequest`.  The last part of the path
names a method; where the configuration knows it, the processor writes the parameters for the
web server into a buffer of its own: the session key from the cookie, the user agent, the
address of the client, and the parameters of the URL that the configuration lists.  The key, the
parameters and the URI are kept in member buffers, from one request to the next.

The buffers are their strings here, `none` before the first use: `setBuffer` and `append` of a
string return no error, and `addURLParameter` is the `withParameter` of `UrlParameters`.  The
choice of a web server and the start of the thread are an environment.
-/
import CatraLibraries.WebTools.UrlParameters

namespace CatraLibraries

open Memory CString Substring WebUtility

/-! ### The configuration -/

/-- A `ConfigurationItem` of the section of the proxy: a method and its parameters. -/
structure ConfigurationItem where
  pItemName : CStr
  bIsCaseSensitive : Bool
  pValues : List CStr

/-- What the processor has read from its configuration. -/
structure ProxyConfiguration where
  pURIHTTPProxyPrefix : CStr
  csHTTPProxyCfgSection : List ConfigurationItem

/-- `tolower`, on which `strcasecmp` rests. -/
def toLower (c : UInt8) : UInt8 := if 65 ≤ c ∧ c ≤ 90 then c + 32 else c

/-- `ConfigurationItem:: operator ==`. -/
def ConfigurationItem.isNamed (item : ConfigurationItem) (pItemName : List UInt8) : Bool :=
  if item.bIsCaseSensitive then item.pItemName.bytes == pItemName
  else item.pItemName.bytes.map toLower == pItemName.map toLower

/-- `getCfgItemByName`: the first item of that name. -/
def ProxyConfiguration.getCfgItemByName (cfg : ProxyConfiguration) (pItemName : List UInt8) :
    Option ConfigurationItem :=
  cfg.csHTTPProxyCfgSection.find? (·.isNamed pItemName)

/-- `CM_CMPROCESSOR_MAXCONFIGURATIONITEMLENGTH`. -/
def maxConfigurationItemLength : Nat := 512

/-! ### Requests and members -/

/-- What a request consists of for the proxy: `pbURL`, `pbRequestUserAgent`,
`pbRequestCookie` and the `_pClientIPAddress` of the session. -/
structure ProxyRequest where
  url : CStr
  userAgent : CStr
  cookie : CStr
  clientIPAddress : CStr

/-- What `getAvailableModule` answers, and whether the thread can be initialized and started. -/
structure ProxyEnvironment where
  availableModule : Option (List UInt8 × Nat)
  threadInitialized : Bool
  threadStarted : Bool

/-- The member buffers. -/
structure ProxyMembers where
  bURIForHTTPProxy : AbsBuffer
  bURLParametersForHTTPProxy : AbsBuffer
  bHTTPSessionKey : AbsBuffer
  deriving DecidableEq

/-- What the proxy thread gets to send. -/
structure ProxiedRequest where
  pWebServer : List UInt8
  ulWebServerPort : Nat
  pURI : List UInt8
  pURLParameters : List UInt8
  deriving DecidableEq

/-- The codes that `manageHTTPProxyRequest` returns, with their parameters. -/
inductive ProxyRequestError
  | errNoError
  | wrongUriFormat (pURL : List UInt8)
  | notToBeProxied (pMethodName : List UInt8)
  | getItemValueFailed
  | getURLParameterValueFailed (pParameterName pURL : List UInt8)
  | getAvailableModuleFailed
  | httpProxyThreadInitFailed
  | pthreadStartFailed
  deriving DecidableEq, Repr

namespace CMProcessor

/-- The members after the constructor; `init` leaves them alone. -/
def builtMembers : ProxyMembers := ⟨none, none, none⟩

/-- `str ()`. -/
def str (b : AbsBuffer) : List UInt8 := b.getD []

/-! ### The method -/

/-- The loop that goes back from the `?` to a `/` or to the start of the URL. -/
def pMethodNameStart (pURL : List UInt8) : Nat → Nat
  | 0 => 0
  | n + 1 => if pURL[n + 1]? = some 47 then n + 1 else pMethodNameStart pURL n

/-- What `setBuffer (p, lBufferLength)` takes of the string at `p`. -/
def counted (s : List UInt8) (lBufferLength : Int) : List UInt8 :=
  if lBufferLength = -1 then s else s.take lBufferLength.toNat

/-- `bMethodName`: the last part of the path. -/
def methodName (pURL : List UInt8) : Option (List UInt8) :=
  if 63 ∈ pURL then
    let pMethodNameEnd := pURL.idxOf 63
    let start := pMethodNameStart pURL pMethodNameEnd
    some (counted (pURL.drop (start + 1)) ((pMethodNameEnd : Int) - start - 1))
  else if 47 ∈ pURL then
    -- `strrchr`: what follows the last slash
    some (pURL.drop (pURL.length - pURL.reverse.idxOf 47))
  else none

/-! ### The parameters -/

/-- `"KEY="`. -/
def keyStart : List UInt8 := bytesOf "KEY="

/-- The key in a cookie: up to the next semicolon, or to the end. -/
def keyIn (cookie : List UInt8) : Option (List UInt8) :=
  (findSub keyStart cookie).map fun i => (cookie.drop (i + keyStart.length)).takeWhile (· ≠ 59)

/-- The part of the cookie: the session key is replaced where there is a new one, and passed on
in any case. -/
def addSessionKey (cookie : List UInt8) (members : ProxyMembers) : ProxyMembers :=
  if cookie ≠ [] then
    let bHTTPSessionKey :=
      match keyIn cookie with
      | some key => some key
      | none => members.bHTTPSessionKey
    { members with
      bHTTPSessionKey := bHTTPSessionKey
      bURLParametersForHTTPProxy :=
        some (withParameter (str members.bURLParametersForHTTPProxy)
          (bytesOf "HTTPSessionKey") (str bHTTPSessionKey)) }
  else members

/-- `addURLParameter (&_bURLParametersForHTTPProxy, name, value)`. -/
def addParameter (name value : List UInt8) (members : ProxyMembers) : ProxyMembers :=
  { members with
    bURLParametersForHTTPProxy :=
      some (withParameter (str members.bURLParametersForHTTPProxy) name value) }

/-- The name that a value of the configuration stands for, and whether it is optional: a `*`
behind it makes it mandatory. -/
def parameterName (value : List UInt8) : List UInt8 × Bool :=
  if value.getLast? = some 42 then (value.dropLast, false) else (value, true)

/-- The loop over the values of the item. -/
def addMethodParameters (pURL : List UInt8) :
    List CStr → ProxyMembers → Except Fault (ProxyRequestError × ProxyMembers)
  | [], members => .ok (.errNoError, members)
  | value :: values, members =>
    if value.bytes.length ≥ maxConfigurationItemLength ∨ value.bytes.length = 0 then
      .ok (.getItemValueFailed, members)
    else do
      let (pParameterName, bIsParameterOptional) := parameterName value.bytes
      let (err, pParameterValue) ←
        getURLParameterValue pURL pParameterName maxConfigurationItemLength
      if err ≠ .errNoError then
        if !bIsParameterOptional then
          return (.getURLParameterValueFailed pParameterName pURL, members)
        else addMethodParameters pURL values members
      else
        addMethodParameters pURL values (addParameter pParameterName pParameterValue members)

/-! ### The request -/

/-- The end of `manageHTTPProxyRequest`: the URI, the web server and the thread. -/
def startProxy (cfg : ProxyConfiguration) (env : ProxyEnvironment) (bMethodName : List UInt8)
    (members : ProxyMembers) : ProxyRequestError × Option ProxiedRequest × ProxyMembers :=
  let members := { members with
    bURIForHTTPProxy := some (cfg.pURIHTTPProxyPrefix.bytes ++ bMethodName) }
  match env.availableModule with
  | none => (.getAvailableModuleFailed, none, members)
  | some (pWebServer, ulWebServerPort) =>
    if !env.threadInitialized then (.httpProxyThreadInitFailed, none, members)
    else if !env.threadStarted then (.pthreadStartFailed, none, members)
    else
      (.errNoError,
        some ⟨pWebServer, ulWebServerPort, str members.bURIForHTTPProxy,
          str members.bURLParametersForHTTPProxy⟩,
        members)

/-- `manageHTTPProxyRequest`. -/
def manageHTTPProxyRequest (cfg : ProxyConfiguration) (env : ProxyEnvironment)
    (r : ProxyRequest) (members : ProxyMembers) :
    Except Fault (ProxyRequestError × Option ProxiedRequest × ProxyMembers) :=
  match methodName r.url.bytes with
  | none => .ok (.wrongUriFormat r.url.bytes, none, members)
  | some bMethodName =>
    match cfg.getCfgItemByName bMethodName with
    | none => .ok (.notToBeProxied bMethodName, none, members)
    | some ciMethodParametersCfgItem => do
      let members := { members with bURLParametersForHTTPProxy := some [] }
      let members := addSessionKey r.cookie.bytes members
      let members := addParameter (bytesOf "UserAgent") r.userAgent.bytes members
      let members := addParameter (bytesOf "ClientIPAddress") r.clientIPAddress.bytes members
      let (err, members) ←
        addMethodParameters r.url.bytes ciMethodParametersCfgItem.pValues members
      if err ≠ .errNoError then return (err, none, members)
      else return startProxy cfg env bMethodName members

/-- A processor serves requests one after the other. -/
def serve (cfg : ProxyConfiguration) :
    List (ProxyRequest × ProxyEnvironment) → ProxyMembers → Except Fault ProxyMembers
  | [], members => .ok members
  | (r, env) :: history, members => do
    let (_, _, members) ← manageHTTPProxyRequest cfg env r members
    serve cfg history members

/-! ### What is sent -/

/-- The parameters that the configuration asks for, as the URL has them. -/
def requestedParameters (pURL : List UInt8) :
    List CStr → Except Fault (ProxyRequestError × List (List UInt8 × List UInt8))
  | [] => .ok (.errNoError, [])
  | value :: values =>
    if value.bytes.length ≥ maxConfigurationItemLength ∨ value.bytes.length = 0 then
      .ok (.getItemValueFailed, [])
    else do
      let (err, pParameterValue) ←
        getURLParameterValue pURL (parameterName value.bytes).1 maxConfigurationItemLength
      if err ≠ .errNoError then
        if !(parameterName value.bytes).2 then
          return (.getURLParameterValueFailed (parameterName value.bytes).1 pURL, [])
        else requestedParameters pURL values
      else
        let (err, parameters) ← requestedParameters pURL values
        return (err, ((parameterName value.bytes).1, pParameterValue) :: parameters)

/-- The parameters of the request itself, with a session key beside a cookie. -/
def ownParameters (key : List UInt8) (r : ProxyRequest) : List (List UInt8 × List UInt8) :=
  (if r.cookie.bytes ≠ [] then [(bytesOf "HTTPSessionKey", key)] else []) ++
    [(bytesOf "UserAgent", r.userAgent.bytes), (bytesOf "ClientIPAddress", r.clientIPAddress.bytes)]

/-- The key that goes with a request. -/
def sessionKey (r : ProxyRequest) (members : ProxyMembers) : List UInt8 :=
  (keyIn r.cookie.bytes).getD (str members.bHTTPSessionKey)

/-- The answer to a request, from the session key that goes with it. -/
def answer (cfg : ProxyConfiguration) (env : ProxyEnvironment) (r : ProxyRequest)
    (key : List UInt8) : Except Fault (ProxyRequestError × Option ProxiedRequest) :=
  match methodName r.url.bytes with
  | none => .ok (.wrongUriFormat r.url.bytes, none)
  | some bMethodName =>
    match cfg.getCfgItemByName bMethodName with
    | none => .ok (.notToBeProxied bMethodName, none)
    | some item => do
      let (err, parameters) ← requestedParameters r.url.bytes item.pValues
      if err ≠ .errNoError then return (err, none)
      else
        let (err, proxied, _) := startProxy cfg env bMethodName
          ⟨none, some (query (ownParameters key r ++ parameters)), none⟩
        return (err, proxied)

end CMProcessor

end CatraLibraries
