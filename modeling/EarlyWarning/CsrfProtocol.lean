/-
# `CsrfProtocol` — a token is worth something only in the session it was made for

`require_csrf` of `app/web_security.py` compares the token of a form with the one of the session.
What this is good for shows over whole runs of `SessionProtocol`, where any client may present
any cookie and post any form: a form is accepted only with a cookie that took its token over,
request by request, from the same cookie as the page that the form stood on.  No login lies
between, so a form from before a login is worth nothing after it.

The only assumption is that `secrets.token_urlsafe` makes no token twice.
-/
import EarlyWarning.SessionTimeout
import EarlyWarning.Lib.OrderedDict

namespace EarlyWarning.CsrfProtocol

open Lib SessionProtocol

/-! ## `require_csrf` -/

def unsafeMethods : List String := ["POST", "PUT", "PATCH", "DELETE"]

def csrfError : String := "请求安全校验失败"

def csrfFormField : String := "_csrf_token"

/-- A field of a form. -/
inductive FormValue
  | text (value : String)
  | upload
deriving DecidableEq

/-- Of the values of one field the last one counts. -/
abbrev FormData := OrderedDict String FormValue

/-- `HTTPException` -/
structure HttpException where
  statusCode : Nat
  detail : String
deriving DecidableEq

inductive Refusal
  | http (exc : HttpException)
  | raised (exc : PyExc)

/-- `_ascii_bytes`, of a string -/
def asciiBytes (value : String) : Option (List Nat) :=
  if value ≠ "" ∧ value.toList.all (fun c => c.toNat < 0x80) then
    some (value.toList.map Char.toNat)
  else none

/-- `_ascii_bytes`, of what `form.get` returns -/
def FormValue.asciiBytes : FormValue → Option (List Nat)
  | .text value => CsrfProtocol.asciiBytes value
  | .upload => none

/-- `require_csrf`; `form` is what `await request.form()` comes to.  A method is an ASCII word. -/
def requireCsrf (method : String) (expected : Option String) (form : Except PyExc FormData) :
    Except Refusal Unit :=
  let refused := .error (.http ⟨403, csrfError⟩)
  if method.toUpper ∉ unsafeMethods then .ok ()
  else
    match form with
    | .error exc => if exc.isException then refused else .error (.raised exc)
    | .ok form =>
        match expected.bind asciiBytes, (form.get? csrfFormField).bind FormValue.asciiBytes with
        | some expectedBytes, some providedBytes =>
            if expectedBytes = providedBytes then .ok () else refused
        | _, _ => refused

theorem asciiBytes_eq_some {value : String} {bytes : List Nat} :
    asciiBytes value = some bytes ↔
      (value ≠ "" ∧ ∀ c ∈ value.toList, c.toNat < 0x80) ∧ value.toList.map Char.toNat = bytes := by
  simp only [asciiBytes, List.all_eq_true, decide_eq_true_eq]
  split
  case isTrue h => rw [Option.some.injEq, and_iff_right h]
  case isFalse h => exact ⟨(fun hb => by cases hb), fun hb => absurd hb.1 h⟩

theorem asciiBytes_injective {value value' : String} {bytes : List Nat}
    (h : asciiBytes value = some bytes) (h' : asciiBytes value' = some bytes) : value = value' := by
  obtain ⟨-, rfl⟩ := asciiBytes_eq_some.mp h
  obtain ⟨-, heq⟩ := asciiBytes_eq_some.mp h'
  refine String.toList_injective (List.map_injective_iff.mpr (fun c c' hc => ?_) heq.symm)
  rw [← Char.ofNat_toNat c, ← Char.ofNat_toNat c', hc]

/-- An unsafe request passes just with the token of its session. -/
theorem requireCsrf_iff {method : String} (hmethod : method.toUpper ∈ unsafeMethods)
    {expected : Option String} {form : Except PyExc FormData} :
    requireCsrf method expected form = .ok () ↔ ∃ token, expected = some token ∧
      (token ≠ "" ∧ ∀ c ∈ token.toList, c.toNat < 0x80) ∧
      ∃ fields, form = .ok fields ∧ fields.get? csrfFormField = some (.text token) := by
  unfold requireCsrf
  rw [if_neg (not_not_intro hmethod)]
  constructor
  · intro h
    split at h
    case h_1 => split at h <;> cases h
    case h_2 fields =>
      split at h
      case h_2 => cases h
      case h_1 expectedBytes providedBytes hexpected hprovided =>
        obtain ⟨token, rfl, htoken⟩ := Option.bind_eq_some_iff.mp hexpected
        obtain ⟨value, hvalue, hbytes⟩ := Option.bind_eq_some_iff.mp hprovided
        split at h
        case isFalse => cases h
        case isTrue heq =>
          subst heq
          cases value with
          | upload => cases hbytes
          | text value =>
              rw [asciiBytes_injective htoken hbytes]
              exact ⟨value, rfl, (asciiBytes_eq_some.mp hbytes).1, fields, rfl, hvalue⟩
  · rintro ⟨token, rfl, htoken, fields, rfl, hvalue⟩
    have hbytes := asciiBytes_eq_some.mpr ⟨htoken, rfl⟩
    simp only [Option.bind_some, hvalue, hbytes, FormValue.asciiBytes, if_true]

/-! ## What a step does with the tokens -/

/-- The tokens that `token_urlsafe` makes in a step. -/
def tokens {ι : Type} : Label ι → List String
  | .dismiss _ token | .render _ token => token.toList
  | .login _ _ token page => token :: page.toList
  | _ => []

/-- The request that a client is in. -/
def request? : Phase → Option Received
  | .received request | .loaded request _ | .admitted request _ _ | .changed request _ _
  | .answered request _ => some request
  | _ => none

/-- The answer to a login with the right password. -/
def LoggedIn (p : Phase) : Prop := ∃ request user now, p = .answered request (.login user now)

section

variable {ι : Type}

/-- The cookie at `n` has this token. -/
def HasToken (history : List (Event ι)) (token : String) (n : Nat) : Prop :=
  ∃ cookie, history[n]? = some (.issue cookie) ∧ cookie.session.csrfToken = some token

/-- Where the token of a request comes from, when a step has been made. -/
inductive Source (made : List String) (history : List (Event ι)) (old : Phase)
    (request : Received) (token : String) : Prop
  | made (h : token ∈ made)
  | kept {before : Received} (h : request? old = some before)
      (htoken : before.session.csrfToken = some token) (hparent : before.parent = request.parent)
  | presented {n : Nat} (hparent : request.parent = some n) (h : HasToken history token n)

/-- Client `i` gets to a phase whose token has a source. -/
structure Moves (made : List String) (history : List (Event ι)) (old new : Phase) : Prop where
  source : ∀ request token, request? new = some request →
    request.session.csrfToken = some token → Source made history old request token
  login : LoggedIn new → ∀ request token, request? new = some request →
    request.session.csrfToken = some token → token ∈ made

variable {history : List (Event ι)} {made : List String} {old new : Phase} {request : Received}
  {token : String}

theorem rendered_token {session : SessionData} {page : Option String}
    (h : (rendered session page).csrfToken = some token) :
    token ∈ page ∨ session.csrfToken = some token := by
  cases page with
  | none => exact .inr h
  | some made =>
      simp only [rendered, ensureCsrfToken] at h
      split at h
      · exact .inl h
      · split at h
        · exact .inl h
        · exact .inr h

theorem moves_of_none (h : request? new = none) : Moves made history old new := by
  refine ⟨fun request token hnew => ?_, fun _ request token hnew => ?_⟩
  · rw [h] at hnew
    cases hnew
  · rw [h] at hnew
    cases hnew

theorem not_loggedIn {stamp : Stamp} (h : ∀ user now, stamp ≠ .login user now) :
    ¬ LoggedIn (.answered request stamp) := by
  rintro ⟨_, user, now, heq⟩
  cases heq
  exact h user now rfl

/-- The request goes on with its token, with a new one or with none. -/
theorem moves_of_kept (before : Received) (hold : request? old = some before)
    (hnew : request? new = some request) (hparent : before.parent = request.parent)
    (htoken : ∀ token, request.session.csrfToken = some token →
      token ∈ made ∨ before.session.csrfToken = some token)
    (hlogin : ¬ LoggedIn new) : Moves made history old new := by
  refine ⟨fun other token hother hhas => ?_, fun hlogged => absurd hlogged hlogin⟩
  cases Option.some.inj (hnew.symm.trans hother)
  rcases htoken token hhas with hmade | hbefore
  · exact .made hmade
  · exact .kept hold hbefore hparent

theorem moves_cleared {parent : Option Nat} :
    Moves made history old (.answered ⟨{}, parent⟩ .other) := by
  refine ⟨fun request token hnew hhas => ?_, fun hlogged => ?_⟩
  · cases Option.some.inj hnew
    cases hhas
  · exact absurd hlogged (not_loggedIn fun _ _ h => by cases h)

theorem moves_received {presented : Option Nat} (h : receive history presented = some request) :
    Moves made history old (.received request) := by
  refine ⟨fun other token hnew hhas => ?_, fun hlogged => ?_⟩
  · cases Option.some.inj hnew
    rcases receive_spec h with rfl | ⟨n, cookie, hparent, hn, hsession⟩
    · cases hhas
    · exact .presented hparent ⟨cookie, hn, hsession ▸ hhas⟩
  · obtain ⟨_, _, _, heq⟩ := hlogged
    cases heq

/-- What a step does to the phases and the history. -/
inductive Effect [DecidableEq ι] (s : State ι) (made : List String) (t : State ι) : Prop
  | tick (phase : t.phase = s.phase) (history : t.history = s.history)
  | moves {i : ι} {p : Phase} (phase : t.phase = Function.update s.phase i p)
      (history : t.history = s.history ∨
        ∃ userId client parent, t.history = s.history ++ [.change userId client parent])
      (moves : Moves made s.history (s.phase i) p)
  | issue {i : ι} {request : Received} {stamp : Stamp}
      (answered : s.phase i = .answered request stamp)
      (phase : t.phase = Function.update s.phase i .done)
      (history : t.history = s.history ++ [.issue ⟨request.session, request.parent, stamp⟩])

variable [DecidableEq ι] {verifyPassword : String → String → Bool}
  {maxAgeSeconds idleTimeoutSeconds : Int} {clients : ι → Client} {s t : State ι} {i : ι}

omit [DecidableEq ι] in
theorem loadUser_moves {client : Client} {p : Phase} (hold : s.phase i = .received request)
    (h : loadUser s request client = some p) :
    Moves (tokens (.load i)) s.history (s.phase i) p := by
  rw [hold]
  obtain ⟨user, -, rfl, -⟩ | rfl | rfl := @loadUser_spec ι (fun _ => client) s i request p h
  · refine moves_of_kept request rfl rfl rfl (fun _ h => .inr h) ?_
    rintro ⟨_, _, _, heq⟩
    cases heq
  · exact moves_of_kept request rfl rfl rfl (fun _ h => .inr h)
      (not_loggedIn fun _ _ h => by cases h)
  · exact moves_cleared

theorem step_effect {a : Label ι}
    (h : step verifyPassword maxAgeSeconds idleTimeoutSeconds clients s a = some t) :
    Effect s (tokens a) t := by
  cases a with
  | tick now =>
      simp only [step] at h
      split at h
      case isTrue => cases h; exact .tick rfl rfl
      case isFalse => cases h
  | present i cookie =>
      simp only [step] at h
      split at h
      case h_1 => cases h
      case h_2 request hi hr _ =>
        cases h
        exact .moves rfl (.inl rfl) (moves_received hr)
      case h_3 => cases h
  | load i =>
      simp only [step] at h
      split at h
      case h_1 request client hi =>
        obtain ⟨p, hp, rfl⟩ := Option.map_eq_some_iff.mp h
        exact .moves rfl (.inl rfl) (loadUser_moves hi hp)
      case h_2 =>
        cases h
        exact .moves rfl (.inl rfl) (moves_of_none rfl)
      case h_3 => cases h
  | dismiss i token =>
      simp only [step] at h
      split at h
      case h_1 request hi =>
        cases h
        refine .moves rfl (.inl rfl) (moves_of_kept request (by rw [hi]; rfl) rfl rfl
          (fun token h => ?_) (not_loggedIn fun _ _ h => by cases h))
        rw [tokens, Option.mem_toList]
        exact rendered_token h
      case h_2 => cases h
  | login i now token page =>
      simp only [step] at h
      split at h
      case h_2 => cases h
      case h_1 request user username password hi _ =>
        split at h
        case isFalse => cases h
        case isTrue =>
          split at h
          case isTrue =>
            cases h
            have hmade : ∀ other token', request? (.answered
                { request with session := loginSession user token now } (.login user now)) =
                  some other → other.session.csrfToken = some token' → token' = token := by
              intro other token' hnew hhas
              cases hnew
              exact (Option.some.inj hhas).symm
            refine .moves rfl (.inl rfl) ⟨fun other token' hnew hhas => .made ?_,
              fun _ other token' hnew hhas => ?_⟩
            · rw [hmade other token' hnew hhas]
              exact List.mem_cons_self
            · rw [hmade other token' hnew hhas]
              exact List.mem_cons_self
          case isFalse =>
            cases h
            refine .moves rfl (.inl rfl) (moves_of_kept request (by rw [hi]; rfl) rfl rfl
              (fun token' h => ?_) (not_loggedIn fun _ _ h => by cases h))
            rcases rendered_token h with hmade | hkept
            · exact .inl (List.mem_cons_of_mem _ (Option.mem_toList.mpr hmade))
            · exact .inr hkept
  | logout i =>
      simp only [step] at h
      split at h
      case h_1 request hi _ =>
        cases h
        exact .moves rfl (.inl rfl) moves_cleared
      case h_2 => cases h
  | validate i now =>
      obtain ⟨-, request, user, hi, ⟨-, rfl⟩ | rfl⟩ := step_validate h
      · refine .moves rfl (.inl rfl) (moves_of_kept request (by rw [hi]; rfl) rfl rfl
          (fun token h => .inr h) ?_)
        rintro ⟨_, _, _, heq⟩
        cases heq
      · exact .moves rfl (.inl rfl) moves_cleared
  | render i token =>
      simp only [step] at h
      split at h
      case h_1 request user now hi =>
        cases h
        refine .moves rfl (.inl rfl) (moves_of_kept request (by rw [hi]; rfl) rfl rfl
          (fun token h => ?_) (not_loggedIn fun _ _ h => by cases h))
        rw [tokens, Option.mem_toList]
        exact rendered_token h
      case h_2 => cases h
  | commit i passwordHash =>
      simp only [step, commitPassword] at h
      split at h
      case h_1 request user now _ _ _ hi _ =>
        split at h
        case isTrue =>
          cases h
          refine .moves rfl (.inr ⟨_, _, _, rfl⟩) (moves_of_kept request (by rw [hi]; rfl) rfl rfl
            (fun token h => .inr h) ?_)
          rintro ⟨_, _, _, heq⟩
          cases heq
        case isFalse => cases h
      case h_2 user hi =>
        cases h
        exact .moves rfl (.inr ⟨_, _, _, rfl⟩) (moves_of_none rfl)
      case h_3 username hi _ =>
        split at h
        case h_1 =>
          cases h
          exact .moves rfl (.inl rfl) (moves_of_none rfl)
        case h_2 =>
          cases h
          exact .moves rfl (.inl rfl) (moves_of_none rfl)
      case h_4 => cases h
  | reread i =>
      simp only [step] at h
      split at h
      case h_1 request userId now hi =>
        split at h
        case h_1 row hfind =>
          cases h
          exact .moves rfl (.inl rfl) (moves_of_kept request (by rw [hi]; rfl) rfl rfl
            (fun token h => .inr h) (not_loggedIn fun _ _ h => by cases h))
        case h_2 => cases h
      case h_2 => cases h
  | respond i =>
      simp only [step] at h
      split at h
      case h_1 request stamp hi =>
        cases h
        by_cases hempty : request.session = {}
        · rw [if_pos hempty]
          exact .moves rfl (.inl rfl) (moves_of_none rfl)
        · rw [if_neg hempty]
          exact .issue hi rfl rfl
      case h_2 => cases h

/-! ## The tokens of a run -/

/-- No cookie has the token yet, and no other client. -/
def New (s : State ι) (i : ι) (token : String) : Prop :=
  (∀ n, ¬ HasToken s.history token n) ∧ ∀ j, j ≠ i → ∀ request,
    request? (s.phase j) = some request → request.session.csrfToken ≠ some token

/-- Where the tokens of the requests and of the cookies come from; `used` are all that have been
made. -/
structure TokenInv (s : State ι) (used : List String) : Prop where
  requested : ∀ i request token, request? (s.phase i) = some request →
    request.session.csrfToken = some token → token ∈ used
  issued : ∀ n token, HasToken s.history token n → token ∈ used
  phases : ∀ i request token, request? (s.phase i) = some request →
    request.session.csrfToken = some token →
    (∃ n, request.parent = some n ∧ HasToken s.history token n) ∨ New s i token
  logins : ∀ i, LoggedIn (s.phase i) → ∀ request token, request? (s.phase i) = some request →
    request.session.csrfToken = some token → New s i token
  cookies : ∀ n cookie token, s.history[n]? = some (.issue cookie) →
    cookie.session.csrfToken = some token →
    (∃ m < n, Resumes s.history n m ∧ HasToken s.history token m) ∨
      ∀ m < n, ¬ HasToken s.history token m

omit [DecidableEq ι] in
theorem hasToken_snoc {e : Event ι} {n : Nat} (h : HasToken (history ++ [e]) token n) :
    HasToken history token n ∨
      n = history.length ∧ ∃ cookie, e = .issue cookie ∧ cookie.session.csrfToken = some token := by
  obtain ⟨cookie, hn, htoken⟩ := h
  rcases getElem?_snoc hn with hold | ⟨rfl, rfl⟩
  · exact .inl ⟨cookie, hold, htoken⟩
  · exact .inr ⟨rfl, cookie, rfl, htoken⟩

omit [DecidableEq ι] in
theorem HasToken.append {more : List (Event ι)} {n : Nat} (h : HasToken history token n) :
    HasToken (history ++ more) token n := by
  obtain ⟨cookie, hn, htoken⟩ := h
  exact ⟨cookie, getElem?_append_old hn, htoken⟩

omit [DecidableEq ι] in
theorem HasToken.lt {n : Nat} (h : HasToken history token n) : n < history.length := by
  obtain ⟨cookie, hn, -⟩ := h
  exact (List.getElem?_eq_some_iff.mp hn).1

omit [DecidableEq ι] in
theorem resumes_append {more : List (Event ι)} {n m : Nat} (h : Resumes history n m) :
    Resumes (history ++ more) n m := by
  obtain ⟨cookie, hn, hlogin, hparent⟩ := h
  exact ⟨cookie, getElem?_append_old hn, hlogin, hparent⟩

omit [DecidableEq ι] in
theorem initial_tokenInv (h : Initial s) : TokenInv s [] := by
  have hnone : ∀ i request, request? (s.phase i) ≠ some request := by
    intro i request heq
    rw [h.idle i] at heq
    cases heq
  have hempty : ∀ n : Nat, s.history[n]? = none := by
    intro n
    rw [h.history]
    rfl
  refine ⟨fun i request _ hi => absurd hi (hnone i request), fun n _ hn => ?_,
    fun i request _ hi => absurd hi (hnone i request),
    fun i _ request _ hi => absurd hi (hnone i request), fun n cookie _ hn => ?_⟩
  · obtain ⟨cookie, hn, -⟩ := hn
    cases (hempty n).symm.trans hn
  · cases (hempty n).symm.trans hn

/-- A client moves on, and no cookie is issued. -/
theorem TokenInv.moves {used : List String} (h : TokenInv s used)
    (hfresh : ∀ token ∈ made, token ∉ used) {p : Phase}
    (hphase : t.phase = Function.update s.phase i p)
    (hhistory : t.history = s.history ∨
      ∃ userId client parent, t.history = s.history ++ [.change userId client parent])
    (hmoves : Moves made s.history (s.phase i) p) : TokenInv t (used ++ made) := by
  have hissue : ∀ (n : Nat) (cookie : Cookie), t.history[n]? = some (.issue cookie) ↔
      s.history[n]? = some (.issue cookie) := by
    intro n cookie
    rcases hhistory with heq | ⟨userId, client, parent, heq⟩
    · rw [heq]
    · rw [heq]
      refine ⟨fun hn => ?_, getElem?_append_old⟩
      rcases getElem?_snoc hn with hold | ⟨-, hnew⟩
      · exact hold
      · cases hnew
  have htoken : ∀ n token, HasToken t.history token n ↔ HasToken s.history token n := by
    intro n token
    simp only [HasToken, hissue]
  have hresumes : ∀ n m, Resumes t.history n m ↔ Resumes s.history n m := by
    intro n m
    simp only [Resumes, hissue]
  have hself : t.phase i = p := by rw [hphase, Function.update_self]
  have hother : ∀ j, j ≠ i → t.phase j = s.phase j := by
    intro j hj
    rw [hphase, Function.update_of_ne hj]
  -- what the others have, the client that moves does not make and does not get
  have hnew : ∀ j, j ≠ i → ∀ request token, request? (s.phase j) = some request →
      request.session.csrfToken = some token → New s j token → New t j token := by
    intro j hj request token hrequest hhas hnew
    refine ⟨fun n hn => hnew.1 n ((htoken n token).mp hn), fun k hk other hk' hhas' => ?_⟩
    by_cases hki : k = i
    · rw [hki, hself] at hk'
      cases hmoves.source other token hk' hhas' with
      | made hmade => exact hfresh token hmade (h.requested j request token hrequest hhas)
      | @kept before hbefore htoken' _ =>
          exact hnew.2 i (Ne.symm hj) before hbefore htoken'
      | @presented n _ hn => exact hnew.1 n hn
    · rw [hother k hki] at hk'
      exact hnew.2 k hk other hk' hhas'
  have hmade : ∀ token ∈ made, New t i token := by
    intro token hmem
    refine ⟨fun n hn => hfresh token hmem (h.issued n token ((htoken n token).mp hn)),
      fun j hj request hj' hhas => ?_⟩
    rw [hother j hj] at hj'
    exact hfresh token hmem (h.requested j request token hj' hhas)
  have hkept : ∀ token, New s i token → New t i token := by
    intro token hnew
    refine ⟨fun n hn => hnew.1 n ((htoken n token).mp hn), fun j hj request hj' => ?_⟩
    rw [hother j hj] at hj'
    exact hnew.2 j hj request hj'
  refine ⟨fun j request token hj hhas => ?_, fun n token hn => ?_,
    fun j request token hj hhas => ?_, fun j hlogin request token hj hhas => ?_, fun n cookie token hn hhas => ?_⟩
  · by_cases hji : j = i
    · rw [hji, hself] at hj
      cases hmoves.source request token hj hhas with
      | made hmem => exact List.mem_append_right used hmem
      | @kept before hbefore htoken' _ =>
          exact List.mem_append_left made (h.requested i before token hbefore htoken')
      | @presented n _ hn => exact List.mem_append_left made (h.issued n token hn)
    · rw [hother j hji] at hj
      exact List.mem_append_left made (h.requested j request token hj hhas)
  · exact List.mem_append_left made (h.issued n token ((htoken n token).mp hn))
  · by_cases hji : j = i
    · rw [hji] at hj ⊢
      rw [hself] at hj
      cases hmoves.source request token hj hhas with
      | made hmem => exact .inr (hmade token hmem)
      | @kept before hbefore htoken' hparent =>
          rcases h.phases i before token hbefore htoken' with ⟨n, hn, hn'⟩ | hnew'
          · exact .inl ⟨n, hparent ▸ hn, (htoken n token).mpr hn'⟩
          · exact .inr (hkept token hnew')
      | @presented n hparent hn => exact .inl ⟨n, hparent, (htoken n token).mpr hn⟩
    · rw [hother j hji] at hj
      rcases h.phases j request token hj hhas with ⟨n, hn, hn'⟩ | hnew'
      · exact .inl ⟨n, hn, (htoken n token).mpr hn'⟩
      · exact .inr (hnew j hji request token hj hhas hnew')
  · by_cases hji : j = i
    · rw [hji] at hj hlogin ⊢
      rw [hself] at hj hlogin
      exact hmade token (hmoves.login hlogin request token hj hhas)
    · rw [hother j hji] at hj hlogin
      exact hnew j hji request token hj hhas (h.logins j hlogin request token hj hhas)
  · simp only [hresumes, htoken]
    exact h.cookies n cookie token ((hissue n cookie).mp hn) hhas

/-- A client gets its cookie. -/
theorem TokenInv.issue {used : List String} (h : TokenInv s used) {stamp : Stamp}
    (hanswered : s.phase i = .answered request stamp)
    (hphase : t.phase = Function.update s.phase i .done)
    (hhistory : t.history = s.history ++ [.issue ⟨request.session, request.parent, stamp⟩]) :
    TokenInv t used := by
  have hi : request? (s.phase i) = some request := by
    rw [hanswered]
    rfl
  have hrequest : ∀ j other, request? (t.phase j) = some other →
      j ≠ i ∧ t.phase j = s.phase j := by
    intro j other hj
    by_cases hji : j = i
    · rw [hphase, hji, Function.update_self] at hj
      cases hj
    · rw [hphase, Function.update_of_ne hji]
      exact ⟨hji, rfl⟩
  have htoken : ∀ n token, HasToken t.history token n → HasToken s.history token n ∨
      n = s.history.length ∧ request.session.csrfToken = some token := by
    intro n token hn
    rw [hhistory] at hn
    rcases hasToken_snoc hn with hold | ⟨hn, cookie, heq, hhas⟩
    · exact .inl hold
    · cases heq
      exact .inr ⟨hn, hhas⟩
  have hold : ∀ n token, n < s.history.length → HasToken t.history token n →
      HasToken s.history token n := by
    intro n token hlt hn
    rcases htoken n token hn with hn | ⟨rfl, -⟩
    · exact hn
    · exact absurd hlt (Nat.lt_irrefl _)
  have hmono : ∀ n token, HasToken s.history token n → HasToken t.history token n := by
    intro n token hn
    rw [hhistory]
    exact hn.append
  have hnew : ∀ j token, j ≠ i → New s j token → New t j token := by
    intro j token hji hnew
    refine ⟨fun n hn => ?_, fun k hk other hk' => ?_⟩
    · rcases htoken n token hn with hn | ⟨-, hhas⟩
      · exact hnew.1 n hn
      · exact hnew.2 i (Ne.symm hji) request hi hhas
    · obtain ⟨-, heq⟩ := hrequest k other hk'
      exact hnew.2 k hk other (heq ▸ hk')
  refine ⟨fun j other token hj hhas => ?_, fun n token hn => ?_, fun j other token hj hhas => ?_,
    fun j hlogin other token hj hhas => ?_, fun n cookie token hn hhas => ?_⟩
  · obtain ⟨-, heq⟩ := hrequest j other hj
    exact h.requested j other token (heq ▸ hj) hhas
  · rcases htoken n token hn with hn | ⟨-, hhas⟩
    · exact h.issued n token hn
    · exact h.requested i request token hi hhas
  · obtain ⟨hji, heq⟩ := hrequest j other hj
    rcases h.phases j other token (heq ▸ hj) hhas with ⟨n, hparent, hn⟩ | hnew'
    · exact .inl ⟨n, hparent, hmono n token hn⟩
    · exact .inr (hnew j token hji hnew')
  · obtain ⟨hji, heq⟩ := hrequest j other hj
    exact hnew j token hji (h.logins j (heq ▸ hlogin) other token (heq ▸ hj) hhas)
  · rw [hhistory] at hn
    rcases getElem?_snoc hn with hn | ⟨rfl, heq⟩
    · have hlt := (List.getElem?_eq_some_iff.mp hn).1
      rcases h.cookies n cookie token hn hhas with ⟨m, hm, hresumes, hm'⟩ | hfirst
      · refine .inl ⟨m, hm, ?_, hmono m token hm'⟩
        rw [hhistory]
        exact resumes_append hresumes
      · exact .inr fun m hm hm' => hfirst m hm (hold m token (by omega) hm')
    · cases heq
      -- a login makes a token of its own
      by_cases hlogin : LoggedIn (s.phase i)
      · have hnew' := h.logins i hlogin request token hi hhas
        exact .inr fun m hm hm' => hnew'.1 m (hold m token hm hm')
      · rcases h.phases i request token hi hhas with ⟨m, hparent, hm⟩ | hnew'
        · refine .inl ⟨m, hm.lt, ⟨_, by rw [hhistory, List.getElem?_concat_length], ?_, hparent⟩,
            hmono m token hm⟩
          rintro user now rfl
          exact hlogin ⟨request, user, now, hanswered⟩
        · exact .inr fun m hm hm' => hnew'.1 m (hold m token hm hm')

theorem step_tokenInv {used : List String} (h : TokenInv s used) {a : Label ι}
    (hfresh : ∀ token ∈ tokens a, token ∉ used)
    (hstep : step verifyPassword maxAgeSeconds idleTimeoutSeconds clients s a = some t) :
    TokenInv t (used ++ tokens a) := by
  have hmore : ∀ {u : State ι}, TokenInv u used → TokenInv u (used ++ tokens a) := by
    intro u hu
    refine ⟨fun i request token hi hhas => ?_, fun n token hn => ?_, hu.phases, hu.logins,
      hu.cookies⟩
    · exact List.mem_append_left _ (hu.requested i request token hi hhas)
    · exact List.mem_append_left _ (hu.issued n token hn)
  cases step_effect hstep with
  | tick hphase hhistory =>
      refine hmore ⟨?_, ?_, ?_, ?_, ?_⟩
      · rw [hphase]
        exact h.requested
      · rw [hhistory]
        exact h.issued
      · simp only [New, hphase, hhistory]
        exact h.phases
      · simp only [New, hphase, hhistory]
        exact h.logins
      · rw [hhistory]
        exact h.cookies
  | moves hphase hhistory hmoves => exact h.moves hfresh hphase hhistory hmoves
  | issue hanswered hphase hhistory => exact hmore (h.issue hanswered hphase hhistory)

theorem run_tokenInv {used : List String} (h : TokenInv s used) {labels : List (Label ι)}
    (hfresh : (used ++ labels.flatMap tokens).Nodup)
    (hrun : fire (step verifyPassword maxAgeSeconds idleTimeoutSeconds clients) s labels =
      some t) : TokenInv t (used ++ labels.flatMap tokens) := by
  induction labels generalizing s used with
  | nil =>
      rw [← fire_nil.mp hrun, List.flatMap_nil, List.append_nil]
      exact h
  | cons a labels ih =>
      obtain ⟨u, hstep, hrest⟩ := fire_cons.mp hrun
      rw [List.flatMap_cons, ← List.append_assoc] at hfresh ⊢
      have hdisjoint : ∀ token ∈ tokens a, token ∉ used := by
        intro token hmade hused
        have hboth := (List.nodup_append.mp (List.nodup_append.mp hfresh).1).2.2
        exact hboth token hused token hmade rfl
      exact ih (step_tokenInv h hdisjoint hstep) hfresh hrest

/-! ## Forms and sessions -/

/-- The cookie at `l` is that of a login. -/
def IsLogin (history : List (Event ι)) (l : Nat) : Prop :=
  ∃ cookie user now, history[l]? = some (.issue cookie) ∧ cookie.stamp = .login user now

/-- The cookie at `n` took the token over, request by request, from the one at `k`. -/
def Carried (history : List (Event ι)) (token : String) : Nat → Nat → Prop :=
  Relation.ReflTransGen fun n m =>
    Resumes history n m ∧ HasToken history token n ∧ HasToken history token m

omit [DecidableEq ι] in
theorem Carried.inherits {n m : Nat} (h : Carried history token n m) : Inherits history n m :=
  Relation.ReflTransGen.mono (fun _ _ hstep => hstep.1) _ _ h

omit [DecidableEq ι] in
theorem resumes_unique {n m m' : Nat} (h : Resumes history n m) (h' : Resumes history n m') :
    m = m' := by
  obtain ⟨cookie, hn, -, hparent⟩ := h
  obtain ⟨cookie', hn', -, hparent'⟩ := h'
  cases Option.some.inj (hn.symm.trans hn')
  exact Option.some.inj (hparent.symm.trans hparent')

omit [DecidableEq ι] in
/-- Two cookies with a common past since a token was made are of the same login. -/
theorem inherits_login {n m k l : Nat} (hlogin : IsLogin history l) (hn : Inherits history n k)
    (hm : Inherits history m k) (h : Inherits history n l) : Inherits history m l := by
  have hunique : Relator.RightUnique (Resumes history) := fun _ _ _ => resumes_unique
  rcases Relation.ReflTransGen.total_of_right_unique hunique hn h with hkl | hlk
  · exact hm.trans hkl
  · -- from a login no branch leads further down
    rcases Relation.ReflTransGen.cases_head hlk with rfl | ⟨l', hresumes, -⟩
    · exact hm
    · obtain ⟨cookie, user, now, hl, hstamp⟩ := hlogin
      obtain ⟨cookie', hl', hnot, -⟩ := hresumes
      cases Option.some.inj (hl.symm.trans hl')
      exact absurd hstamp (hnot user now)

/-- **A form is worth something only in its own session.**  A request that changes something passes
`require_csrf` just with the token of the cookie it presents, and then every cookie that was ever
issued with this token, such as the one that came with the page of the form, took it over from
the same cookie as this one, and is of the same login. -/
theorem csrf_lineage (h : Initial s) {labels : List (Label ι)}
    (hfresh : (labels.flatMap tokens).Nodup)
    (hrun : fire (step verifyPassword maxAgeSeconds idleTimeoutSeconds clients) s labels = some t)
    (hi : t.phase i = .received request) {method : String}
    (hmethod : method.toUpper ∈ unsafeMethods) {form : Except PyExc FormData} :
    requireCsrf method request.session.csrfToken form = .ok () ↔
    ∃ token fields n k, (token ≠ "" ∧ ∀ c ∈ token.toList, c.toNat < 0x80) ∧
      form = .ok fields ∧ fields.get? csrfFormField = some (.text token) ∧
      request.parent = some n ∧ HasToken t.history token n ∧
      (∀ m, HasToken t.history token m → Carried t.history token m k) ∧
      ∀ m l, HasToken t.history token m → IsLogin t.history l →
        (Inherits t.history m l ↔ Inherits t.history n l) := by
  have hinv := run_tokenInv (initial_tokenInv h) (by simpa using hfresh) hrun
  have hcookie : FromCookie t.history request := by
    have htime : TimeInv verifyPassword clients s := h.timeInv
    have hphase := (run_timeInv htime hrun).phases i
    rw [hi] at hphase
    exact hphase
  rw [requireCsrf_iff hmethod]
  constructor
  · rintro ⟨token, hexpected, htoken, fields, hform, hfield⟩
    rcases hcookie with rfl | ⟨n, cookie, hparent, hn, hsession⟩
    · cases hexpected
    · have hhas : HasToken t.history token n := ⟨cookie, hn, hsession ▸ hexpected⟩
      obtain ⟨k, -, hcarried⟩ := exists_origin (Resumes t.history)
        (fun n hn => by
          obtain ⟨cookie, hn, hhas⟩ := hn
          rcases hinv.cookies n cookie token hn hhas with ⟨m, hm, hresumes, hm'⟩ | hfirst
          · exact .inl ⟨m, hm, hm', hresumes⟩
          · exact .inr hfirst) hhas
      refine ⟨token, fields, n, k, htoken, hform, hfield, hparent, hhas, hcarried,
        fun m l hm hlogin => ?_⟩
      have hmk := Carried.inherits (hcarried m hm)
      have hnk := Carried.inherits (hcarried n hhas)
      exact ⟨inherits_login hlogin hmk hnk, inherits_login hlogin hnk hmk⟩
  · rintro ⟨token, fields, n, k, htoken, hform, hfield, hparent, ⟨cookie, hn, hhas⟩, -, -⟩
    refine ⟨token, ?_, htoken, fields, hform, hfield⟩
    rcases hcookie with rfl | ⟨n', cookie', hparent', hn', hsession⟩
    · cases hparent
    · cases Option.some.inj (hparent.symm.trans hparent')
      cases Option.some.inj (hn.symm.trans hn')
      rw [hsession]
      exact hhas

end

/-! ## The form of the login page -/

def pageThenLogin : Nat → Client
  | 0 => .page
  | _ => .login "admin" Sample.password

/-- Client 0 opens the login page, and client 1 posts its form with the cookie that came with it. -/
theorem csrf_lineage_loginForm :
    ∃ t request, fire (step Sample.verifyPassword 28800 1800 pageThenLogin) Sample.start
        [.present 0 none, .dismiss 0 (some "token"), .respond 0, .present 1 (some 0)] = some t ∧
      t.phase 1 = .received request ∧
      ∃ n k, request.parent = some n ∧
        ∀ m, HasToken t.history "token" m → Carried t.history "token" m k := by
  have hrun : (fire (step Sample.verifyPassword 28800 1800 pageThenLogin) Sample.start
      [.present 0 none, .dismiss 0 (some "token"), .respond 0, .present 1 (some 0)]).map
        (fun t => t.phase 1) = some (.received ⟨{ csrfToken := some "token" }, some 0⟩) := by
    decide +kernel
  obtain ⟨t, ht, hphase⟩ := Option.map_eq_some_iff.mp hrun
  have hmethod : "post".toUpper ∈ unsafeMethods := by decide +kernel
  have hpass : requireCsrf "post" (some "token")
      (.ok (OrderedDict.ofPairs [(csrfFormField, .text "token")])) = .ok () := by
    have hascii : ∀ c ∈ "token".toList, c.toNat < 0x80 := by simp
    refine (requireCsrf_iff hmethod).mpr ⟨"token", rfl, ⟨by decide, hascii⟩, _, rfl, ?_⟩
    decide
  obtain ⟨token, fields, n, k, -, hform, hfield, hparent, -, hcarried, -⟩ :=
    (csrf_lineage Sample.start_initial (by decide) ht hphase hmethod).mp hpass
  cases hform
  cases hfield
  exact ⟨t, _, ht, hphase, n, k, hparent, hcarried⟩

end EarlyWarning.CsrfProtocol
