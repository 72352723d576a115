import Mathlib
import TreeCatalog.Http.Server
import TreeCatalog.Proofs.Text.Split
import TreeCatalog.Proofs.Text.Utf8

/-! # Only admitted callers reach an endpoint

With an API key configured, access is not open, and a request under `/api` reaches its endpoint
only through the authentication stage. The caller presents a token (the `Authorization` header
less a `Bearer ` prefix, else the `token` query parameter); the stage admits it exactly when the
token is the API key, or a token the server accepts that carries the admin role where the
endpoint creates catalogs (`authenticate_ok_iff`).

A request the stage refuses gets the same answer whatever the endpoint's handler would do, so no
handler runs for it; one it admits, and that the earlier stages (CORS, the rate limiter) let by,
is answered by the handler, on the server as the rate limiter left it
(`handler_runs_iff_admitted`). -/

namespace TreeCatalog.Http

/-- The caller of endpoint `e` presenting `token` is admitted at `now`: the token is the API key,
or a token the server accepts, carrying the admin role when `e` creates catalogs. -/
def Server.Admits (s : Server) (e : Endpoint) (token : String) (now : Int) : Prop :=
  token = s.config.apiKey ∨
    ∃ claims, s.credentials.check token now = .ok claims ∧
      (e.creates = true → claims.role = Token.Role.admin.name)

theorem splitOn_empty_dot : "".splitOn "." = [""] := by
  have h := Text.splitOn_singleton "" '.'
  rw [show String.singleton '.' = "." by decide] at h
  simpa using h

/-- An empty token has no three segments, so no credentials accept it. -/
theorem check_empty (c : Token.Credentials) (now : Int) (claims : Token.Claims) :
    c.check "" now ≠ .ok claims := by
  unfold Token.Credentials.check Token.verify
  rw [splitOn_empty_dot]
  intro h
  cases h

/-- Settings loaded from an environment are open exactly when they have no API key. -/
theorem load_openAccess {d : Disk.Disk} {env : Settings.Env} {c : Settings.Config}
    (h : Settings.load d env = .ok c) : c.openAccess = true ↔ c.apiKey = "" := by
  unfold Settings.load Settings.Config.settle at h
  dsimp only at h
  split at h
  · cases h
  · split at h
    · cases h
      simp_all
    · split at h <;> (cases h; simp_all [Settings.fromEnv])

section Authenticate

variable {s : Server} {e : Endpoint} {req : Request} {t : Target} {hs : List (String × String)}
  {now : Int}

/-- With an API key configured, the authentication stage lets through exactly the callers it
admits. -/
theorem authenticate_ok_iff (hkey : s.config.apiKey ≠ "") (hopen : s.config.openAccess = false)
    (he : e.guarded = true) :
    (∃ caller, s.authenticate e req t hs now = .ok caller) ↔
      s.Admits e (presentedToken req t) now := by
  unfold Server.authenticate Server.Admits
  simp only [he, hopen, Bool.not_true, Bool.or_false, Bool.false_eq_true, if_false]
  by_cases htok : presentedToken req t = ""
  · -- no token: refused, and neither the key nor any token is empty
    rw [if_pos htok, htok]
    simp [Ne.symm hkey, check_empty]
  · rw [if_neg htok]
    by_cases hk : s.credentials.acceptsKey (presentedToken req t) = true
    · rw [if_pos hk]
      have hkey' : presentedToken req t = s.config.apiKey := by
        simp only [Token.Credentials.acceptsKey, Server.credentials, Bool.and_eq_true,
          bne_iff_ne, beq_iff_eq] at hk
        exact hk.2
      simp [hkey']
    · rw [if_neg hk]
      have hne : presentedToken req t ≠ s.config.apiKey := by
        intro h
        apply hk
        simp [Token.Credentials.acceptsKey, Server.credentials, h, hkey]
      cases hc : s.credentials.check (presentedToken req t) now with
      | error m => simp [hne]
      | ok claims =>
        dsimp only
        by_cases hrole : e.creates = true ∧ claims.role ≠ Token.Role.admin.name
        · rw [if_pos hrole]
          simp only [hne, false_or, reduceCtorEq, exists_false, false_iff, not_exists, not_and]
          intro c hcc himp
          cases hcc
          exact hrole.2 (himp hrole.1)
        · rw [if_neg hrole]
          simp only [hne, false_or]
          refine ⟨fun _ => ⟨claims, rfl, fun hcr => ?_⟩, fun _ => ⟨_, rfl⟩⟩
          by_contra hr
          exact hrole ⟨hcr, hr⟩

end Authenticate

/-- Without `%`, decoding a path keeps its bytes. -/
theorem unescapeBytes_keep (bs : List UInt8) (h : 37 ∉ bs) : unescapeBytes false bs = some bs := by
  induction bs with
  | nil => rfl
  | cons b rest ih =>
    have hb : b ≠ 37 := fun he => h (he ▸ List.mem_cons_self)
    have hr := ih fun hm => h (List.mem_cons_of_mem _ hm)
    unfold unescapeBytes
    split
    · simp_all
    · simp_all
    · simp_all
    · rename_i heq
      simp only [List.cons.injEq] at heq
      obtain ⟨rfl, rfl⟩ := heq
      simp [hr]
    · rename_i heq
      simp only [List.cons.injEq] at heq
      obtain ⟨rfl, rfl⟩ := heq
      simp [hr]

/-- The only character whose bytes hold a `%` is `%` itself. -/
theorem percent_not_mem_toUTF8 {s : String} (h : '%' ∉ s.toList) : (37 : UInt8) ∉ s.toUTF8.toList := by
  rw [← Text.Utf8.encode, Text.Utf8.encode_eq_flatMap, List.mem_flatMap]
  rintro ⟨c, hc, hb⟩
  by_cases hlow : c.toNat ≤ 0x7f
  · rw [Text.Utf8.utf8EncodeChar_one hlow, List.mem_singleton] at hb
    have h37 : c.toNat = 37 := by
      have := congrArg UInt8.toNat hb
      rw [Text.Utf8.toNat_ofNat_lt (by omega)] at this
      exact this.symm
    have hc' : c = '%' := by
      rw [← Char.ofNat_toNat c, h37]
    exact h (hc' ▸ hc)
  · have := Text.Utf8.high_of_mem_utf8EncodeChar (by omega) hb
    simp at this

/-- A target without `?` and `%` is its own path. -/
theorem path_parse_plain {t : String} (hq : '?' ∉ t.toList) (hp : '%' ∉ t.toList) :
    (Target.parse t).path = t := by
  have hsplit : t.splitOn "?" = [t] := by
    rw [show "?" = String.singleton '?' by decide, Text.splitOn_singleton,
      List.splitOn_eq_singleton hq]
    simp
  simp only [Target.parse, hsplit, unescapePath, unescapeBytes_keep _ (percent_not_mem_toUTF8 hp)]
  exact Text.Utf8.decode_encode t

section Serve

variable {s : Server} {req : Request} {now : Int} {fid : String} {e : Endpoint}

/-- A refused caller gets the same answer whatever the handler would do: no handler runs. -/
theorem serveWith_refused (hkey : s.config.apiKey ≠ "") (hopen : s.config.openAccess = false)
    (hr : route req.method (Target.parse req.target).path = .endpoint e) (he : e.guarded = true)
    (hno : ¬ s.Admits e (presentedToken req (Target.parse req.target)) now)
    (run run' : Server → Endpoint → Request → Target → List (String × String) → Int →
      Server × Option Response) :
    s.serveWith run req now fid = s.serveWith run' req now fid := by
  unfold Server.serveWith
  simp only [hr]
  by_cases hopt : req.method = "OPTIONS"
  · simp only [hopt, if_true]
  · simp only [hopt, if_false]
    cases hallow : (s.limiter.allow req.client now).2
    · -- the rate limiter answers
      rfl
    · cases hauth : Server.authenticate { s with limiter := (s.limiter.allow req.client now).1 } e
          req (Target.parse req.target) (s.baseHeaders req fid) now with
      | error resp => rfl
      | ok caller => exact absurd ((authenticate_ok_iff hkey hopen he).mp ⟨caller, hauth⟩) hno

/-- An admitted caller that the earlier stages let by is answered by the handler, on the server
as the rate limiter left it. -/
theorem serveWith_admitted (hkey : s.config.apiKey ≠ "") (hopen : s.config.openAccess = false)
    (hr : route req.method (Target.parse req.target).path = .endpoint e) (he : e.guarded = true)
    (hyes : s.Admits e (presentedToken req (Target.parse req.target)) now)
    (hopt : req.method ≠ "OPTIONS") (hallow : (s.limiter.allow req.client now).2 = true)
    (run : Server → Endpoint → Request → Target → List (String × String) → Int →
      Server × Option Response) :
    s.serveWith run req now fid =
      run { s with limiter := (s.limiter.allow req.client now).1 } e req (Target.parse req.target)
        (s.baseHeaders req fid) now := by
  obtain ⟨caller, hauth⟩ := (@authenticate_ok_iff
    { s with limiter := (s.limiter.allow req.client now).1 } e req (Target.parse req.target)
    (s.baseHeaders req fid) now hkey hopen he).mpr hyes
  unfold Server.serveWith
  simp only [hr, hopt, if_false, hallow, Bool.not_true, Bool.false_eq_true]
  rw [hauth]

/-- The server of the test settings, over an empty disk. -/
def testServer : Server := Server.new Settings.testing { root := .dir [], cwd := "/" }

/-- A request listing catalogs that shows the test API key as a bearer token. -/
def listWithKey : Request :=
  { method := "GET", target := "/api/catalogs",
    headers := [("Authorization", "Bearer test-api-key")] }

end Serve

end TreeCatalog.Http
