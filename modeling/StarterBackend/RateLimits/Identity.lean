/-
Who a rate limit counts against: `client_ip.py`, and the keys of `rate_limit.py`.

The key of a limiter is its name and what it knows of the client, joined by a colon.  The
default limiter has no name of its own, so its clients share the keys of the other limiters
with the clients that those name.  A client that stands behind a proxy chooses the first
part of the forwarded header, which is the part that is read.
-/
import StarterBackend.Webhooks.Inbound

namespace StarterBackend.RateLimits

open Lib Webhooks

/-! ### Clients -/

/-- The address of a connection, without blanks and commas. -/
structure PeerAddress where
  text : String
  nonempty : text ≠ ""
  plain : ∀ c ∈ text.toList, PyText.isSpace c = false ∧ c ≠ ','

/-- What the limiters read of a request. -/
structure LimitedRequest where
  /-- `X-Forwarded-For`. -/
  forwardedFor : Option String
  /-- `X-Real-IP`. -/
  realIp : Option String
  /-- `request.client.host`. -/
  client : Option PeerAddress
  /-- The address that a password reset is requested for. -/
  email : Option String := none
  /-- The provider of a webhook. -/
  provider : String := ""

/-- `forwarded_for.split(",")[0]`. -/
def firstPart (header : String) : String := String.ofList (header.toList.takeWhile (· ≠ ','))

/-- `get_client_ip`. -/
def getClientIp (trustForwardedHeaders : Bool) (request : LimitedRequest) : String :=
  let direct := (request.client.map PeerAddress.text).getD "unknown"
  if trustForwardedHeaders then
    match request.forwardedFor.filter (· ≠ "") with
    | some forwardedFor => PyText.strip (firstPart forwardedFor)
    | none =>
        match request.realIp.filter (· ≠ "") with
        | some realIp => PyText.strip realIp
        | none => direct
  else direct

lemma PeerAddress.strip_text (peer : PeerAddress) : PyText.strip peer.text = peer.text := by
  rw [PyText.strip, PyText.stripped_eq_self fun c hc => (peer.plain c hc).1, String.ofList_toList]

/-- A client has no blanks around it. -/
lemma strip_getClientIp (request : LimitedRequest) :
    PyText.strip (getClientIp true request) = getClientIp true request := by
  unfold getClientIp
  rw [if_pos rfl]
  split
  · exact PyText.strip_strip _
  · split
    · exact PyText.strip_strip _
    · cases request.client with
      | none => decide
      | some peer => exact peer.strip_text

/-! ### Keys -/

inductive Limiter where
  /-- `rate_limit()`. -/
  | default
  | authLogin
  | authRegister
  | authRefresh
  | authLogout
  | passwordReset
  | webhookIngress
  | webhookProvider
deriving DecidableEq

/-- The key prefix of a limiter, without `rate_limit:`. -/
def Limiter.name : Limiter → String
  | .default => ""
  | .authLogin => "auth_login"
  | .authRegister => "auth_register"
  | .authRefresh => "auth_refresh"
  | .authLogout => "auth_logout"
  | .passwordReset => "password_reset"
  | .webhookIngress => "webhook_ingress"
  | .webhookProvider => "webhook_provider"

/-- The key of `rate_limit`. -/
def rateLimitKey (keyPrefix clientIp : String) : String := keyPrefix ++ ":" ++ clientIp

/-- The digest of an address in the key of `password_reset_rate_limit`. -/
def emailHash (crypto : Crypto) (email : Option String) : String :=
  crypto.sha256 ((email.map crypto.lower).getD "").toUTF8.data.toList

/-- The key of `password_reset_rate_limit`. -/
def passwordResetKey (crypto : Crypto) (clientIp : String) (email : Option String) : String :=
  "rate_limit:password_reset:" ++ clientIp ++ ":" ++ emailHash crypto email

/-- The key that a limiter builds for a request, if it counts it at all. -/
def Limiter.key (crypto : Crypto) (trustForwardedHeaders : Bool) (limiter : Limiter)
    (request : LimitedRequest) : Option String :=
  let clientIp := getClientIp trustForwardedHeaders request
  match limiter with
  | .default => some (rateLimitKey "rate_limit" clientIp)
  | .authLogin => some (rateLimitKey "rate_limit:auth_login" clientIp)
  | .authRegister => some (rateLimitKey "rate_limit:auth_register" clientIp)
  | .authRefresh => some (rateLimitKey "rate_limit:auth_refresh" clientIp)
  | .authLogout => some (rateLimitKey "rate_limit:auth_logout" clientIp)
  | .passwordReset => some (passwordResetKey crypto clientIp request.email)
  | .webhookIngress => some (rateLimitKey "rate_limit:webhook_ingress" clientIp)
  | .webhookProvider => providerKey crypto request.provider

/-- What stands in a key after the name of its limiter. -/
def Limiter.lastPart (crypto : Crypto) (limiter : Limiter) (request : LimitedRequest) : String :=
  match limiter with
  | .passwordReset => getClientIp true request ++ ":" ++ emailHash crypto request.email
  | .webhookProvider => crypto.lower (PyText.strip request.provider)
  | _ => getClientIp true request

section

variable {crypto : Crypto} {limiter limiter' : Limiter} {request request' : LimitedRequest}
  {key : String}

lemma rateLimitKey_eq {keyPrefix name : String} (h : keyPrefix = "rate_limit:" ++ name)
    (clientIp : String) :
    rateLimitKey keyPrefix clientIp = "rate_limit:" ++ (name ++ ":" ++ clientIp) := by
  simp only [rateLimitKey, h, String.append_assoc]

lemma passwordResetKey_eq (clientIp : String) (email : Option String) :
    passwordResetKey crypto clientIp email =
      "rate_limit:" ++ ("password_reset" ++ ":" ++
        (clientIp ++ ":" ++ emailHash crypto email)) := by
  have hname : "rate_limit:password_reset:" = "rate_limit:" ++ ("password_reset" ++ ":") := by
    decide
  unfold passwordResetKey
  rw [hname]
  simp only [String.append_assoc]

lemma providerKey_eq {provider : String} (h : providerKey crypto provider = some key) :
    key = "rate_limit:" ++ ("webhook_provider" ++ ":" ++ crypto.lower (PyText.strip provider)) := by
  have hname : "rate_limit:webhook_provider:" = "rate_limit:" ++ ("webhook_provider" ++ ":") := by
    decide
  simp only [providerKey] at h
  split_ifs at h
  rw [← Option.some.inj h, hname]
  simp only [String.append_assoc]

/-- The key of a limiter that has a name. -/
lemma Limiter.key_eq (hne : limiter ≠ .default) (h : limiter.key crypto true request = some key) :
    key = "rate_limit:" ++ (limiter.name ++ ":" ++ limiter.lastPart crypto request) := by
  cases limiter with
  | default => exact absurd rfl hne
  | authLogin => exact (Option.some.inj h).symm.trans (rateLimitKey_eq (by decide) _)
  | authRegister => exact (Option.some.inj h).symm.trans (rateLimitKey_eq (by decide) _)
  | authRefresh => exact (Option.some.inj h).symm.trans (rateLimitKey_eq (by decide) _)
  | authLogout => exact (Option.some.inj h).symm.trans (rateLimitKey_eq (by decide) _)
  | webhookIngress => exact (Option.some.inj h).symm.trans (rateLimitKey_eq (by decide) _)
  | passwordReset => exact (Option.some.inj h).symm.trans (passwordResetKey_eq _ _)
  | webhookProvider => exact providerKey_eq h

/-- The name of a limiter has no colon, and no two limiters have one name. -/
lemma Limiter.colon_notMem_name (limiter : Limiter) : ':' ∉ limiter.name.toList := by
  cases limiter <;> decide

lemma Limiter.name_injective : Function.Injective Limiter.name := by
  intro limiter limiter' h
  cases limiter <;> cases limiter' <;> first | rfl | exact absurd h (by decide)

/-- A text with the name of a limiter before its first colon. -/
lemma name_append_inj {rest rest' : String}
    (h : limiter.name ++ ":" ++ rest = limiter'.name ++ ":" ++ rest') :
    limiter = limiter' ∧ rest = rest' := by
  have hlist : limiter.name.toList ++ ':' :: rest.toList =
      limiter'.name.toList ++ ':' :: rest'.toList := by
    simpa using congrArg String.toList h
  obtain ⟨hname, hrest⟩ :=
    PyText.append_cons_inj limiter.colon_notMem_name limiter'.colon_notMem_name hlist
  exact ⟨Limiter.name_injective (String.toList_inj.1 hname), String.toList_inj.1 hrest⟩

/-- What a limiter with a name can have after it, in some key. -/
def Limiter.CanEndIn (crypto : Crypto) (limiter : Limiter) (rest : String) : Prop :=
  match limiter with
  | .passwordReset => ∃ clientIp email, PyText.strip clientIp = clientIp ∧
      rest = clientIp ++ ":" ++ emailHash crypto email
  | .webhookProvider => rest ≠ "" ∧ ∃ provider, crypto.lower (PyText.strip provider) = rest
  | _ => PyText.strip rest = rest

/-- A client that is called like another limiter and a client of it. -/
def NamesLimiter (crypto : Crypto) (clientIp : String) : Prop :=
  ∃ limiter : Limiter, limiter ≠ .default ∧ ∃ rest,
    clientIp = limiter.name ++ ":" ++ rest ∧ limiter.CanEndIn crypto rest

/-- A request of a client of any name. -/
def requestOf (clientIp : String) : LimitedRequest where
  forwardedFor := if clientIp = "" then some "," else none
  realIp := some clientIp
  client := none

lemma getClientIp_requestOf {clientIp : String} (h : PyText.strip clientIp = clientIp) :
    getClientIp true (requestOf clientIp) = clientIp := by
  by_cases hempty : clientIp = ""
  · subst hempty
    decide
  · simp [getClientIp, requestOf, hempty, h, Option.filter]

/-- What stands after the name in a key is one of the texts that can stand there. -/
lemma canEndIn_lastPart (hne : limiter ≠ .default)
    (h : limiter.key crypto true request = some key) :
    limiter.CanEndIn crypto (limiter.lastPart crypto request) := by
  cases limiter with
  | default => exact absurd rfl hne
  | passwordReset => exact ⟨_, _, strip_getClientIp request, rfl⟩
  | webhookProvider =>
      simp only [Limiter.key, providerKey] at h
      split_ifs at h with hblank
      exact ⟨hblank, _, rfl⟩
  | authLogin => exact strip_getClientIp request
  | authRegister => exact strip_getClientIp request
  | authRefresh => exact strip_getClientIp request
  | authLogout => exact strip_getClientIp request
  | webhookIngress => exact strip_getClientIp request

/-- Every text that can stand after a name does so in some key. -/
lemma exists_key {rest : String} (hne : limiter ≠ .default) (h : limiter.CanEndIn crypto rest) :
    ∃ request, limiter.key crypto true request =
      some ("rate_limit:" ++ (limiter.name ++ ":" ++ rest)) := by
  have hperIp : ∀ {keyPrefix : String}, keyPrefix = "rate_limit:" ++ limiter.name →
      PyText.strip rest = rest →
      rateLimitKey keyPrefix (getClientIp true (requestOf rest)) =
        "rate_limit:" ++ (limiter.name ++ ":" ++ rest) := by
    intro keyPrefix hinitial hstrip
    rw [getClientIp_requestOf hstrip, rateLimitKey_eq hinitial]
  cases limiter with
  | default => exact absurd rfl hne
  | authLogin => exact ⟨requestOf rest, congrArg some (hperIp (by decide) h)⟩
  | authRegister => exact ⟨requestOf rest, congrArg some (hperIp (by decide) h)⟩
  | authRefresh => exact ⟨requestOf rest, congrArg some (hperIp (by decide) h)⟩
  | authLogout => exact ⟨requestOf rest, congrArg some (hperIp (by decide) h)⟩
  | webhookIngress => exact ⟨requestOf rest, congrArg some (hperIp (by decide) h)⟩
  | passwordReset =>
      obtain ⟨clientIp, email, hstrip, rfl⟩ := h
      refine ⟨{ requestOf clientIp with email }, ?_⟩
      have hkey : Limiter.passwordReset.key crypto true { requestOf clientIp with email } =
          some (passwordResetKey crypto (getClientIp true (requestOf clientIp)) email) := rfl
      rw [hkey, getClientIp_requestOf hstrip, passwordResetKey_eq]
      rfl
  | webhookProvider =>
      obtain ⟨hrest, provider, rfl⟩ := h
      refine ⟨{ requestOf "" with provider }, ?_⟩
      obtain ⟨key, hkey⟩ : ∃ key, providerKey crypto provider = some key := by
        simp only [providerKey, if_neg hrest]
        exact ⟨_, rfl⟩
      have hsame : Limiter.webhookProvider.key crypto true { requestOf "" with provider } =
          providerKey crypto provider := rfl
      rw [hsame, hkey, providerKey_eq hkey]
      rfl

/-- **Limiters with names do not share counters, and the default limiter shares one with another
limiter exactly for the clients that are called like one.** -/
theorem limiters_share_iff (crypto : Crypto) :
    (∀ limiter limiter' : Limiter, limiter ≠ .default → limiter' ≠ .default →
      ∀ request request' key, limiter.key crypto true request = some key →
        limiter'.key crypto true request' = some key → limiter = limiter') ∧
    ∀ request, (∀ limiter : Limiter, limiter ≠ .default → ∀ request',
        limiter.key crypto true request' ≠ Limiter.default.key crypto true request) ↔
      ¬ NamesLimiter crypto (getClientIp true request) := by
  refine ⟨?_, fun request => ?_⟩
  · intro limiter limiter' hne hne' request request' key hkey hkey'
    have heq := (limiter.key_eq hne hkey).symm.trans (limiter'.key_eq hne' hkey')
    exact (name_append_inj ((String.append_right_inj _).1 heq)).1
  · have hdefault : Limiter.default.key crypto true request =
        some ("rate_limit:" ++ getClientIp true request) := rfl
    rw [hdefault]
    constructor
    · rintro hall ⟨limiter, hne, rest, hclient, hrest⟩
      obtain ⟨request', hkey⟩ := exists_key hne hrest
      exact hall limiter hne request' (by rw [hkey, hclient])
    · rintro hnames limiter hne request' hkey
      have heq := (String.append_right_inj _).1 (limiter.key_eq hne hkey)
      exact hnames ⟨limiter, hne, _, heq, canEndIn_lastPart hne hkey⟩

end

/-- A client that calls itself `auth_login:198.51.100.20` is counted by the default limiter under
the key of the logins of `198.51.100.20`. -/
theorem limiters_share_sample :
    ∃ request request' : LimitedRequest, ∃ key,
      Limiter.default.key sampleCrypto true request = some key ∧
        Limiter.authLogin.key sampleCrypto true request' = some key ∧
          Limiter.default ≠ Limiter.authLogin := by
  refine ⟨⟨some "auth_login:198.51.100.20", none, none, none, ""⟩,
    ⟨some "198.51.100.20", none, none, none, ""⟩, "rate_limit:auth_login:198.51.100.20", ?_, ?_, ?_⟩
  · decide
  · decide
  · decide

/-! ### Behind a proxy -/

/-- `$proxy_add_x_forwarded_for` of Nginx, for the header that a client sends. -/
def proxyAddXForwardedFor (sent : Option String) (peer : PeerAddress) : String :=
  match sent with
  | none => peer.text
  | some sent => sent ++ ", " ++ peer.text

/-- A request as the proxy passes it on. -/
def proxied (request : LimitedRequest) (peer : PeerAddress) (sent : Option String) :
    LimitedRequest :=
  { request with
    forwardedFor := some (proxyAddXForwardedFor sent peer)
    realIp := some peer.text }

/-- The first address of the header that a client sends, or the address of the client. -/
def firstHop (peer : PeerAddress) (sent : Option String) : String :=
  match sent with
  | none => peer.text
  | some sent => PyText.strip (firstPart sent)

section

variable {request : LimitedRequest} {peer : PeerAddress} {sent sent' : Option String}

/-- What follows a comma is not in the first part. -/
lemma firstPart_append (header rest : String) :
    firstPart (header ++ ", " ++ rest) = firstPart header := by
  have hlist : (header ++ ", " ++ rest).toList = header.toList ++ ',' :: ' ' :: rest.toList := by
    simp
  rw [firstPart, firstPart, hlist, List.takeWhile_append]
  split
  · rename_i hall
    rw [List.takeWhile_cons_of_neg (by simp), List.append_nil,
      List.IsPrefix.eq_of_length (List.takeWhile_prefix _) hall]
  · rfl

lemma firstPart_peer (peer : PeerAddress) : firstPart peer.text = peer.text := by
  rw [firstPart, List.takeWhile_eq_self_iff.2 fun c hc => by simpa using (peer.plain c hc).2,
    String.ofList_toList]

lemma getClientIp_proxied : getClientIp true (proxied request peer sent) = firstHop peer sent := by
  cases sent with
  | none =>
      have hfilter : (some peer.text).filter (· ≠ "") = some peer.text := by
        simp [Option.filter, peer.nonempty]
      simp only [getClientIp, proxied, proxyAddXForwardedFor, if_true, hfilter, firstPart_peer,
        peer.strip_text, firstHop]
  | some sent =>
      have hne : sent ++ ", " ++ peer.text ≠ "" := by
        intro h
        have hlist := congrArg String.toList h
        simp at hlist
      have hfilter : (some (sent ++ ", " ++ peer.text)).filter (· ≠ "") =
          some (sent ++ ", " ++ peer.text) := by
        simp [Option.filter, hne]
      simp only [getClientIp, proxied, proxyAddXForwardedFor, if_true, hfilter, firstPart_append,
        firstHop]

/-- Every limiter that counts clients counts two clients of one request apart. -/
lemma key_eq_iff {crypto : Crypto} {limiter : Limiter} (hne : limiter ≠ .webhookProvider) :
    limiter.key crypto true (proxied request peer sent) =
        limiter.key crypto true (proxied request peer sent') ↔
      firstHop peer sent = firstHop peer sent' := by
  have hip : ∀ sent, getClientIp true (proxied request peer sent) = firstHop peer sent := fun _ =>
    getClientIp_proxied
  have hemail : ∀ sent, (proxied request peer sent).email = request.email := fun _ => rfl
  cases limiter with
  | webhookProvider => exact absurd rfl hne
  | passwordReset =>
      simp only [Limiter.key, hip, hemail, Option.some.injEq, passwordResetKey_eq,
        String.append_right_inj, String.append_left_inj]
  | _ => simp only [Limiter.key, hip, Option.some.injEq, rateLimitKey, String.append_right_inj]

/-- **The identity of a client behind the proxy is the first address that it sends.**  Two
requests of one peer count against the same key exactly if their headers begin with the same
address, and a request counts as its peer exactly if its header is absent or begins with it. -/
theorem client_identity_iff (crypto : Crypto) (request : LimitedRequest) (peer : PeerAddress)
    (sent sent' : Option String) :
    (getClientIp true (proxied request peer sent) = getClientIp true (proxied request peer sent') ↔
      firstHop peer sent = firstHop peer sent') ∧
    (getClientIp true (proxied request peer sent) = peer.text ↔
      ∀ header ∈ sent, PyText.strip (firstPart header) = peer.text) ∧
    ∀ limiter : Limiter, limiter ≠ .webhookProvider →
      (limiter.key crypto true (proxied request peer sent) =
          limiter.key crypto true (proxied request peer sent') ↔
        firstHop peer sent = firstHop peer sent') := by
  refine ⟨by rw [getClientIp_proxied, getClientIp_proxied], ?_, fun limiter => key_eq_iff⟩
  rw [getClientIp_proxied]
  cases sent <;> simp [firstHop]

end

def samplePeer : PeerAddress := ⟨"198.51.100.20", by decide, by simp [PyText.isSpace]⟩

/-- A client that sends another address has another identity. -/
theorem client_identity_forged :
    getClientIp true (proxied ⟨none, none, none, none, ""⟩ samplePeer none) ≠
      getClientIp true (proxied ⟨none, none, none, none, ""⟩ samplePeer (some "203.0.113.7")) := by
  decide

end StarterBackend.RateLimits
