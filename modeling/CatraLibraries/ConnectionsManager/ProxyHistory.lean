/-
# What a proxied request owes to the requests before it

All that one request leaves to the next is the session key: the parameters are emptied and the
URI is set anew each time.  The answer to a request is therefore a function of the request, the
configuration, the environment and the key that goes with it (`answer`).

The key goes with every request that has a cookie, but only a cookie with `KEY=` in it sets it.
So the request determines what is sent exactly when it has no cookie, or a cookie with a key, or
is not passed on at all; in every other case the key of an earlier client is sent.
-/
import CatraLibraries.ConnectionsManager.ProxiedRequest

namespace CatraLibraries

open Memory CString Substring WebUtility

namespace CMProcessor

variable {cfg : ProxyConfiguration} {env : ProxyEnvironment} {r : ProxyRequest}
variable {members members' : ProxyMembers}

/-! ### The parameters of the method -/

/-- What the loop over the values leaves. -/
theorem addMethodParameters_ok {pURL : List UInt8} {values : List CStr} {err : ProxyRequestError}
    {parameters : List (List UInt8 × List UInt8)}
    (h : requestedParameters pURL values = .ok (err, parameters)) (members : ProxyMembers) :
    ∃ members', addMethodParameters pURL values members = .ok (err, members') ∧
      members'.bHTTPSessionKey = members.bHTTPSessionKey ∧
      (err = .errNoError → str members'.bURLParametersForHTTPProxy
        = parameters.foldl (fun params p => withParameter params p.1 p.2)
            (str members.bURLParametersForHTTPProxy)) := by
  induction values generalizing members parameters with
  | nil =>
    cases h
    exact ⟨members, rfl, rfl, fun _ => rfl⟩
  | cons value values ih =>
    rw [requestedParameters] at h
    rw [addMethodParameters]
    by_cases hlen : value.bytes.length ≥ maxConfigurationItemLength ∨ value.bytes.length = 0
    · rw [if_pos hlen] at h ⊢
      cases h
      exact ⟨members, rfl, rfl, nofun⟩
    · rw [if_neg hlen] at h ⊢
      obtain ⟨⟨e, v⟩, hget, h⟩ := bind_eq_ok.mp h
      dsimp only at h ⊢
      rw [hget, ok_bind]
      dsimp only
      by_cases he : e ≠ .errNoError
      · rw [if_pos he] at h ⊢
        by_cases hopt : (!(parameterName value.bytes).2) = true
        · rw [if_pos hopt] at h ⊢
          cases h
          exact ⟨members, rfl, rfl, nofun⟩
        · rw [if_neg hopt] at h ⊢
          exact ih h members
      · rw [if_neg he] at h ⊢
        obtain ⟨⟨e', rest⟩, hrest, h⟩ := bind_eq_ok.mp h
        cases h
        obtain ⟨members', hrun, hkey, hparams⟩ :=
          ih hrest (addParameter (parameterName value.bytes).1 v members)
        exact ⟨members', hrun, hkey, fun herr => (hparams herr).trans rfl⟩

/-- The loop ends without an answer where the search for a parameter does. -/
theorem addMethodParameters_error {pURL : List UInt8} {values : List CStr} {f : Fault}
    (h : requestedParameters pURL values = .error f) (members : ProxyMembers) :
    addMethodParameters pURL values members = .error f := by
  induction values generalizing members with
  | nil => cases h
  | cons value values ih =>
    rw [requestedParameters] at h
    rw [addMethodParameters]
    by_cases hlen : value.bytes.length ≥ maxConfigurationItemLength ∨ value.bytes.length = 0
    · rw [if_pos hlen] at h
      cases h
    · rw [if_neg hlen] at h ⊢
      dsimp only
      cases hget : getURLParameterValue pURL (parameterName value.bytes).1
          maxConfigurationItemLength with
      | error f' =>
        rw [hget, error_bind] at h
        cases h
        rfl
      | ok ev =>
        rw [hget, ok_bind] at h
        rw [ok_bind]
        dsimp only at h ⊢
        by_cases he : ev.1 ≠ .errNoError
        · rw [if_pos he] at h ⊢
          by_cases hopt : (!(parameterName value.bytes).2) = true
          · rw [if_pos hopt] at h
            cases h
          · rw [if_neg hopt] at h ⊢
            exact ih h members
        · rw [if_neg he] at h ⊢
          cases hrest : requestedParameters pURL values with
          | error f' =>
            rw [hrest, error_bind] at h
            cases h
            exact ih hrest _
          | ok rest =>
            rw [hrest, ok_bind] at h
            cases h

/-! ### The answer -/

/-- What the end of the function answers depends on the members through the parameters alone. -/
theorem startProxy_congr (bMethodName : List UInt8)
    (h : str members.bURLParametersForHTTPProxy = str members'.bURLParametersForHTTPProxy) :
    (startProxy cfg env bMethodName members).1 = (startProxy cfg env bMethodName members').1 ∧
      (startProxy cfg env bMethodName members).2.1
        = (startProxy cfg env bMethodName members').2.1 := by
  unfold startProxy
  cases env.availableModule with
  | none => exact ⟨rfl, rfl⟩
  | some server =>
    dsimp only
    rw [h]
    cases env.threadInitialized <;> cases env.threadStarted <;> exact ⟨rfl, rfl⟩

/-- What the processor has written before it comes to the parameters of the method. -/
def started (r : ProxyRequest) (members : ProxyMembers) : ProxyMembers :=
  addParameter (bytesOf "ClientIPAddress") r.clientIPAddress.bytes
    (addParameter (bytesOf "UserAgent") r.userAgent.bytes
      (addSessionKey r.cookie.bytes { members with bURLParametersForHTTPProxy := some [] }))

theorem started_parameters (r : ProxyRequest) (members : ProxyMembers) :
    str (started r members).bURLParametersForHTTPProxy
      = query (ownParameters (sessionKey r members) r) := by
  unfold started addSessionKey ownParameters sessionKey
  by_cases hcookie : r.cookie.bytes ≠ []
  · rw [if_pos hcookie, if_pos hcookie]
    cases keyIn r.cookie.bytes <;> rfl
  · rw [if_neg hcookie, if_neg hcookie]
    rfl

/-- The key that is left for the next request. -/
theorem started_key (r : ProxyRequest) (members : ProxyMembers) :
    (started r members).bHTTPSessionKey
      = if r.cookie.bytes ≠ [] then (keyIn r.cookie.bytes).orElse fun _ => members.bHTTPSessionKey
        else members.bHTTPSessionKey := by
  unfold started addSessionKey
  by_cases hcookie : r.cookie.bytes ≠ []
  · rw [if_pos hcookie, if_pos hcookie]
    cases keyIn r.cookie.bytes <;> rfl
  · rw [if_neg hcookie, if_neg hcookie]
    rfl

/-- A request for a configured method. -/
theorem manageHTTPProxyRequest_item {bMethodName : List UInt8} {item : ConfigurationItem}
    (hname : methodName r.url.bytes = some bMethodName)
    (hitem : cfg.getCfgItemByName bMethodName = some item) (members : ProxyMembers) :
    manageHTTPProxyRequest cfg env r members = (do
      let (err, members) ← addMethodParameters r.url.bytes item.pValues (started r members)
      if err ≠ .errNoError then return (err, none, members)
      else return startProxy cfg env bMethodName members) := by
  rw [manageHTTPProxyRequest, hname]
  dsimp only
  rw [hitem]
  rfl

/-- The part of a result that goes to the web server and to the caller. -/
def sent (result : Except Fault (ProxyRequestError × Option ProxiedRequest × ProxyMembers)) :
    Except Fault (ProxyRequestError × Option ProxiedRequest) :=
  result.map fun x => (x.1, x.2.1)

/-- **The answer to a request** depends on the requests before it through the session key alone. -/
theorem sent_manageHTTPProxyRequest (cfg : ProxyConfiguration) (env : ProxyEnvironment)
    (r : ProxyRequest) (members : ProxyMembers) :
    sent (manageHTTPProxyRequest cfg env r members) = answer cfg env r (sessionKey r members) := by
  cases hname : methodName r.url.bytes with
  | none =>
    unfold manageHTTPProxyRequest answer
    rw [hname]
    rfl
  | some bMethodName =>
    cases hitem : cfg.getCfgItemByName bMethodName with
    | none =>
      unfold manageHTTPProxyRequest answer
      rw [hname]
      dsimp only
      rw [hitem]
      rfl
    | some item =>
      rw [manageHTTPProxyRequest_item hname hitem, answer, hname]
      dsimp only
      rw [hitem]
      dsimp only
      cases hreq : requestedParameters r.url.bytes item.pValues with
      | error f =>
        rw [addMethodParameters_error hreq, error_bind, error_bind]
        rfl
      | ok result =>
        obtain ⟨err, parameters⟩ := result
        obtain ⟨members', hrun, -, hparams⟩ := addMethodParameters_ok hreq (started r members)
        rw [hrun, ok_bind, ok_bind]
        dsimp only
        by_cases herr : err ≠ .errNoError
        · rw [if_pos herr, if_pos herr]
          rfl
        · rw [if_neg herr, if_neg herr]
          have hquery : str members'.bURLParametersForHTTPProxy
              = query (ownParameters (sessionKey r members) r ++ parameters) := by
            rw [hparams (not_not.mp herr), started_parameters, query, query, List.foldl_append]
          have hsame : str members'.bURLParametersForHTTPProxy
              = str (⟨none, some (query (ownParameters (sessionKey r members) r ++ parameters)),
                none⟩ : ProxyMembers).bURLParametersForHTTPProxy := hquery
          exact congrArg Except.ok (Prod.ext (startProxy_congr bMethodName hsame).1
            (startProxy_congr bMethodName hsame).2)

/-! ### Histories -/

/-- The processor takes up the thread with `p` for a request that comes after a history. -/
def Forwards (cfg : ProxyConfiguration) (history : List (ProxyRequest × ProxyEnvironment))
    (env : ProxyEnvironment) (r : ProxyRequest) (p : ProxiedRequest) : Prop :=
  ∃ members members', serve cfg history builtMembers = .ok members ∧
    manageHTTPProxyRequest cfg env r members = .ok (.errNoError, some p, members')

/-- What is sent for a request is determined by it: the URI and the parameters whatever web
server takes them, and in one environment the whole answer. -/
structure Determined (cfg : ProxyConfiguration) (r : ProxyRequest) : Prop where
  content : ∀ h₁ h₂ env₁ env₂ p₁ p₂, Forwards cfg h₁ env₁ r p₁ → Forwards cfg h₂ env₂ r p₂ →
    p₁.pURI = p₂.pURI ∧ p₁.pURLParameters = p₂.pURLParameters
  answered : ∀ h₁ h₂ env m₁ m₂, serve cfg h₁ builtMembers = .ok m₁ →
    serve cfg h₂ builtMembers = .ok m₂ →
    sent (manageHTTPProxyRequest cfg env r m₁) = sent (manageHTTPProxyRequest cfg env r m₂)

/-- The configuration knows the method of the request, and the URL has every mandatory
parameter of it. -/
def Accepted (cfg : ProxyConfiguration) (r : ProxyRequest) : Prop :=
  ∃ bMethodName item parameters, methodName r.url.bytes = some bMethodName ∧
    cfg.getCfgItemByName bMethodName = some item ∧
    requestedParameters r.url.bytes item.pValues = .ok (.errNoError, parameters)

/-- What is sent for an accepted request that is passed on. -/
theorem answer_forwarded {key : List UInt8} {p : ProxiedRequest} {e : ProxyRequestError}
    (h : answer cfg env r key = .ok (e, some p)) :
    ∃ bMethodName item parameters, methodName r.url.bytes = some bMethodName ∧
      cfg.getCfgItemByName bMethodName = some item ∧
      requestedParameters r.url.bytes item.pValues = .ok (.errNoError, parameters) ∧
      p.pURI = cfg.pURIHTTPProxyPrefix.bytes ++ bMethodName ∧
      p.pURLParameters = query (ownParameters key r ++ parameters) := by
  unfold answer at h
  cases hname : methodName r.url.bytes with
  | none => rw [hname] at h; cases h
  | some bMethodName =>
    rw [hname] at h
    dsimp only at h
    cases hitem : cfg.getCfgItemByName bMethodName with
    | none => rw [hitem] at h; cases h
    | some item =>
      rw [hitem] at h
      obtain ⟨⟨err, parameters⟩, hreq, h⟩ := bind_eq_ok.mp h
      dsimp only at h
      by_cases herr : err ≠ .errNoError
      · rw [if_pos herr] at h
        cases h
      · rw [if_neg herr] at h
        obtain rfl : err = .errNoError := not_not.mp herr
        refine ⟨bMethodName, item, parameters, rfl, hitem, hreq, ?_⟩
        unfold startProxy at h
        cases hserver : env.availableModule with
        | none => rw [hserver] at h; cases h
        | some server =>
          rw [hserver] at h
          dsimp only at h
          cases hinit : env.threadInitialized with
          | false => rw [hinit] at h; cases h
          | true =>
            cases hstart : env.threadStarted with
            | false => rw [hinit, hstart] at h; cases h
            | true =>
              rw [hinit, hstart] at h
              cases h
              exact ⟨rfl, rfl⟩

/-- **What is sent**: the own parameters of the request, with the key of the processor where its
cookie has none. -/
theorem Forwards.eq {history : List (ProxyRequest × ProxyEnvironment)} {p : ProxiedRequest}
    (h : Forwards cfg history env r p) :
    ∃ members bMethodName item parameters, serve cfg history builtMembers = .ok members ∧
      methodName r.url.bytes = some bMethodName ∧ cfg.getCfgItemByName bMethodName = some item ∧
      requestedParameters r.url.bytes item.pValues = .ok (.errNoError, parameters) ∧
      p.pURI = cfg.pURIHTTPProxyPrefix.bytes ++ bMethodName ∧
      p.pURLParameters = query (ownParameters (sessionKey r members) r ++ parameters) := by
  obtain ⟨members, members', hserve, hrun⟩ := h
  have hanswer := sent_manageHTTPProxyRequest cfg env r members
  rw [hrun] at hanswer
  obtain ⟨bMethodName, item, parameters, h⟩ := answer_forwarded hanswer.symm
  exact ⟨members, bMethodName, item, parameters, hserve, h⟩

/-- The answer depends on the key through the own parameters of an accepted request. -/
theorem answer_congr {k₁ k₂ : List UInt8}
    (h : Accepted cfg r → ownParameters k₁ r = ownParameters k₂ r) :
    answer cfg env r k₁ = answer cfg env r k₂ := by
  unfold answer
  cases hname : methodName r.url.bytes with
  | none => rfl
  | some bMethodName =>
    dsimp only
    cases hitem : cfg.getCfgItemByName bMethodName with
    | none => rfl
    | some item =>
      dsimp only
      cases hreq : requestedParameters r.url.bytes item.pValues with
      | error f => rfl
      | ok result =>
        obtain ⟨err, parameters⟩ := result
        rw [ok_bind, ok_bind]
        dsimp only
        by_cases herr : err ≠ .errNoError
        · rw [if_pos herr, if_pos herr]
        · obtain rfl : err = .errNoError := not_not.mp herr
          rw [h ⟨bMethodName, item, parameters, hname, hitem, hreq⟩]

/-- Two keys give two texts, at least where one of them is empty. -/
theorem query_key_injective {key : List UInt8} {rest : List (List UInt8 × List UInt8)}
    (h : query ((bytesOf "HTTPSessionKey", key) :: rest)
      = query ((bytesOf "HTTPSessionKey", []) :: rest)) : key = [] := by
  rw [query_cons, query_cons] at h
  have htext := List.append_cancel_right h
  unfold parameterText at htext
  exact encodedValue_eq_nil.mp (List.append_cancel_left (List.cons_inj_right _ |>.mp htext))

/-! ### The main result -/

/-- Once a method is known and its parameters are there, a request with a key leaves it behind. -/
theorem serve_key (h : Accepted cfg r) {key : List UInt8} (hcookie : r.cookie.bytes ≠ [])
    (hkey : keyIn r.cookie.bytes = some key) :
    ∃ members, serve cfg [(r, env)] builtMembers = .ok members ∧
      members.bHTTPSessionKey = some key := by
  obtain ⟨bMethodName, item, parameters, hname, hitem, hreq⟩ := h
  obtain ⟨members, hrun, hleft, -⟩ := addMethodParameters_ok hreq (started r builtMembers)
  refine ⟨(startProxy cfg env bMethodName members).2.2, ?_, ?_⟩
  · rw [serve, manageHTTPProxyRequest_item hname hitem, hrun, ok_bind]
    rfl
  · have hsame : (startProxy cfg env bMethodName members).2.2.bHTTPSessionKey
        = members.bHTTPSessionKey := by
      unfold startProxy
      cases env.availableModule with
      | none => rfl
      | some server => cases env.threadInitialized <;> cases env.threadStarted <;> rfl
    rw [hsame, hleft, started_key, if_pos hcookie, hkey]
    rfl

/-- An accepted request is passed on where there is a web server. -/
theorem forwards_of_accepted (h : Accepted cfg r) {history : List (ProxyRequest × ProxyEnvironment)}
    (hserve : serve cfg history builtMembers = .ok members) :
    ∃ p, Forwards cfg history ⟨some ([], 80), true, true⟩ r p := by
  obtain ⟨bMethodName, item, parameters, hname, hitem, hreq⟩ := h
  obtain ⟨members', hrun, -, -⟩ := addMethodParameters_ok hreq (started r members)
  refine ⟨⟨[], 80, cfg.pURIHTTPProxyPrefix.bytes ++ bMethodName,
    str members'.bURLParametersForHTTPProxy⟩, members, { members' with
      bURIForHTTPProxy := some (cfg.pURIHTTPProxyPrefix.bytes ++ bMethodName) }, hserve, ?_⟩
  rw [manageHTTPProxyRequest_item hname hitem, hrun, ok_bind]
  rfl

/-- A key is found where the cookie has `KEY=`. -/
theorem exists_keyIn (cookie : List UInt8) :
    (∃ key, keyIn cookie = some key) ↔ keyStart <:+: cookie := by
  rw [← findSub_isSome_iff]
  unfold keyIn
  cases findSub keyStart cookie with
  | none => simp
  | some i => simp

/-- A request without a cookie, or with a key of its own, is sent with the same parameters
whatever key the processor has. -/
theorem ownParameters_congr (h : r.cookie.bytes = [] ∨ keyStart <:+: r.cookie.bytes)
    (members members' : ProxyMembers) :
    ownParameters (sessionKey r members) r = ownParameters (sessionKey r members') r := by
  rcases h with hcookie | hbyInfix
  · unfold ownParameters
    rw [if_neg (not_not.mpr hcookie), if_neg (not_not.mpr hcookie)]
  · obtain ⟨key, hkey⟩ := (exists_keyIn _).mpr hbyInfix
    rw [sessionKey, sessionKey, hkey]
    rfl

/-- The cookie that an earlier client sends. -/
def earlierCookie : CStr := ⟨bytesOf "KEY=x", by decide⟩

/-- With a cookie that has no key, the request is sent with whatever key the processor has. -/
theorem not_determined (hcookie : r.cookie.bytes ≠ []) (hkey : keyIn r.cookie.bytes = none)
    (haccepted : Accepted cfg r) : ¬ Determined cfg r := by
  intro h
  -- the same request from an earlier client, with a key in its cookie
  have hearlier : Accepted cfg { r with cookie := earlierCookie } := haccepted
  obtain ⟨members, hserve, hleft⟩ : ∃ members,
      serve cfg [({ r with cookie := earlierCookie }, ⟨some ([], 80), true, true⟩)] builtMembers
        = .ok members ∧ members.bHTTPSessionKey = some [120] :=
    serve_key hearlier (show earlierCookie.bytes ≠ [] by decide)
      (show keyIn earlierCookie.bytes = some [120] by decide)
  obtain ⟨p₁, hp₁⟩ := forwards_of_accepted haccepted hserve
  have hfirst : serve cfg [] builtMembers = .ok builtMembers := rfl
  obtain ⟨p₂, hp₂⟩ := forwards_of_accepted haccepted hfirst
  have hsame := (h.content _ _ _ _ _ _ hp₁ hp₂).2
  obtain ⟨m₁, name₁, item₁, parameters₁, hm₁, hname₁, hitem₁, hreq₁, -, heq₁⟩ := hp₁.eq
  obtain ⟨m₂, name₂, item₂, parameters₂, hm₂, hname₂, hitem₂, hreq₂, -, heq₂⟩ := hp₂.eq
  obtain rfl : name₁ = name₂ := Option.some.inj (hname₁.symm.trans hname₂)
  obtain rfl : item₁ = item₂ := Option.some.inj (hitem₁.symm.trans hitem₂)
  obtain rfl : parameters₁ = parameters₂ := by
    have := hreq₁.symm.trans hreq₂
    exact (Prod.mk.inj (Except.ok.inj this)).2
  obtain rfl : members = m₁ := Except.ok.inj (hserve.symm.trans hm₁)
  obtain rfl : builtMembers = m₂ := Except.ok.inj hm₂
  have hkey₁ : sessionKey r members = [120] := by
    rw [sessionKey, hkey, hleft]
    rfl
  have hkey₂ : sessionKey r builtMembers = [] := by
    rw [sessionKey, hkey]
    rfl
  rw [heq₁, heq₂, hkey₁, hkey₂, ownParameters, ownParameters, if_pos hcookie, if_pos hcookie]
    at hsame
  exact absurd (query_key_injective hsame) (by decide)

/-- **When a request determines what is sent for it**: it has no cookie, or a cookie with a key,
or it is not accepted. -/
theorem determined_iff (cfg : ProxyConfiguration) (r : ProxyRequest) :
    Determined cfg r ↔
      r.cookie.bytes = [] ∨ keyStart <:+: r.cookie.bytes ∨ ¬ Accepted cfg r := by
  constructor
  · intro h
    by_contra hcon
    obtain ⟨hcookie, hrest⟩ := not_or.mp hcon
    obtain ⟨hbyInfix, haccepted⟩ := not_or.mp hrest
    refine not_determined hcookie ?_ (not_not.mp haccepted) h
    rw [Option.eq_none_iff_forall_ne_some]
    exact fun key hkey => hbyInfix ((exists_keyIn _).mp ⟨key, hkey⟩)
  · intro h
    have hown : Accepted cfg r → ∀ m₁ m₂ : ProxyMembers,
        ownParameters (sessionKey r m₁) r = ownParameters (sessionKey r m₂) r := by
      intro haccepted
      refine ownParameters_congr ?_
      rcases h with hcookie | hbyInfix | hnot
      · exact Or.inl hcookie
      · exact Or.inr hbyInfix
      · exact absurd haccepted hnot
    constructor
    · intro h₁ h₂ env₁ env₂ p₁ p₂ hp₁ hp₂
      obtain ⟨m₁, name₁, item₁, parameters₁, -, hname₁, hitem₁, hreq₁, huri₁, heq₁⟩ := hp₁.eq
      obtain ⟨m₂, name₂, item₂, parameters₂, -, hname₂, hitem₂, hreq₂, huri₂, heq₂⟩ := hp₂.eq
      obtain rfl : name₁ = name₂ := Option.some.inj (hname₁.symm.trans hname₂)
      obtain rfl : item₁ = item₂ := Option.some.inj (hitem₁.symm.trans hitem₂)
      obtain rfl : parameters₁ = parameters₂ :=
        (Prod.mk.inj (Except.ok.inj (hreq₁.symm.trans hreq₂))).2
      have haccepted : Accepted cfg r := ⟨name₁, item₁, parameters₁, hname₁, hitem₁, hreq₁⟩
      exact ⟨huri₁.trans huri₂.symm, by rw [heq₁, heq₂, hown haccepted m₁ m₂]⟩
    · intro h₁ h₂ env m₁ m₂ _ _
      rw [sent_manageHTTPProxyRequest, sent_manageHTTPProxyRequest]
      exact answer_congr fun haccepted => hown haccepted m₁ m₂

/-! ### A key in the wrong hands -/

/-- One method, `login`, without parameters of its own. -/
def loginConfiguration : ProxyConfiguration :=
  ⟨⟨bytesOf "/ws/", by decide⟩, [⟨⟨bytesOf "login", by decide⟩, true, []⟩]⟩

/-- A web server that takes every request. -/
def webServerUp : ProxyEnvironment := ⟨some (bytesOf "web", 80), true, true⟩

/-- A request of a client that has logged in. -/
def requestWithKey : ProxyRequest :=
  ⟨⟨bytesOf "/cms/login", by decide⟩, ⟨bytesOf "A", by decide⟩, ⟨bytesOf "KEY=7f3a", by decide⟩,
    ⟨bytesOf "10.0.0.1", by decide⟩⟩

/-- A request of another client, whose cookie is about something else. -/
def requestWithoutKey : ProxyRequest :=
  ⟨⟨bytesOf "/cms/login", by decide⟩, ⟨bytesOf "B", by decide⟩, ⟨bytesOf "lang=en", by decide⟩,
    ⟨bytesOf "10.0.0.2", by decide⟩⟩

/-- The second client's request goes out under the key of the first. -/
theorem requestWithoutKey_not_determined :
    Forwards loginConfiguration [(requestWithKey, webServerUp)] webServerUp requestWithoutKey
        ⟨bytesOf "web", 80, bytesOf "/ws/login",
          bytesOf "?HTTPSessionKey=7f3a&UserAgent=B&ClientIPAddress=10.0.0.2"⟩ ∧
      ¬ Determined loginConfiguration requestWithoutKey := by
  refine ⟨⟨⟨some (bytesOf "/ws/login"),
      some (bytesOf "?HTTPSessionKey=7f3a&UserAgent=A&ClientIPAddress=10.0.0.1"),
      some (bytesOf "7f3a")⟩,
    ⟨some (bytesOf "/ws/login"),
      some (bytesOf "?HTTPSessionKey=7f3a&UserAgent=B&ClientIPAddress=10.0.0.2"),
      some (bytesOf "7f3a")⟩, ?_, ?_⟩, not_determined (by decide) (by decide) ?_⟩
  · rfl
  · rfl
  · exact ⟨bytesOf "login", ⟨⟨bytesOf "login", by decide⟩, true, []⟩, [], by decide, rfl, rfl⟩

end CMProcessor

end CatraLibraries
