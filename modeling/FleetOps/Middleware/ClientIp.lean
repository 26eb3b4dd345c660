import FleetOps.Middleware.Window

namespace FleetOps.Middleware

open Text

-- An address as a proxy writes it.
structure Address where
  text : List Char
  nonempty : text ≠ []
  no_comma : ',' ∉ text
  no_blank : ∀ c ∈ text, isSpace c = false

def Blanks (s : List Char) : Prop := ∀ c ∈ s, isSpace c = true ∧ c ≠ ','

-- What a proxy makes of the header value it received: the address of its peer comes last,
-- after a comma if there was a value.
inductive Appended : Option (List Char) → Address → List Char → Prop where
  | alone (address : Address) (left right : List Char) : Blanks left → Blanks right →
      Appended none address (left ++ address.text ++ right)
  | replaces_empty (address : Address) (left right : List Char) : Blanks left → Blanks right →
      Appended (some []) address (left ++ address.text ++ right)
  | behind (value : List Char) (address : Address) (left right : List Char) : Blanks left →
      Blanks right → Appended (some value) address (value ++ ',' :: (left ++ address.text ++ right))

-- The value after each proxy on the way has appended the peer it saw.
inductive Forwarded : Option (List Char) → List Address → Option (List Char) → Prop where
  | nil (value : Option (List Char)) : Forwarded value [] value
  | cons {value : Option (List Char)} {appended : List Char} {last : Option (List Char)}
      {address : Address} {rest : List Address} : Appended value address appended →
      Forwarded (some appended) rest last → Forwarded value (address :: rest) last

section Hops

theorem hops_padded (address : Address) {left right : List Char} (hleft : Blanks left)
    (hright : Blanks right) : hops (left ++ address.text ++ right) = [address.text] := by
  have hstrip : strip (left ++ address.text ++ right) = address.text :=
    strip_padded (fun c hc => (hleft c hc).1) address.no_blank address.nonempty
      fun c hc => (hright c hc).1
  have hcomma : ',' ∉ left ++ address.text ++ right := by
    simp only [List.mem_append, not_or]
    exact ⟨⟨fun h => (hleft _ h).2 rfl, address.no_comma⟩, fun h => (hright _ h).2 rfl⟩
  rw [hops, List.splitOn_eq_singleton hcomma, List.map_singleton, hstrip]
  simp [address.nonempty]

theorem hops_append (value rest : List Char) : hops (value ++ ',' :: rest) = hops value ++ hops rest := by
  simp only [hops, List.splitOn_append_cons_self, List.map_append, List.filter_append]

-- The hops a client sent, if any.
def sent (value : Option (List Char)) : List (List Char) := (value.map hops).getD []

theorem Appended.hops {value : Option (List Char)} {address : Address} {appended : List Char}
    (h : Appended value address appended) :
    Middleware.hops appended = sent value ++ [address.text] := by
  cases h with
  | alone _ left right hleft hright => exact hops_padded address hleft hright
  | replaces_empty _ left right hleft hright => exact hops_padded address hleft hright
  | behind value _ left right hleft hright =>
      rw [hops_append, hops_padded address hleft hright]
      rfl

-- Whatever came before, the last hops are the addresses that were appended.
theorem Forwarded.hops {value last : Option (List Char)} {addresses : List Address}
    (h : Forwarded value addresses last) : sent last = sent value ++ addresses.map Address.text := by
  induction h with
  | nil value => simp
  | cons happended _ ih =>
      have hfirst := happended.hops
      rw [ih, List.map_cons, List.append_cons, ← hfirst]
      rfl

end Hops

-- The N-th hop from the right is the first that was appended.
theorem client_ip_of_hops (scope : Scope) {forged : List (List Char)} {peer : Address}
    {inner : List Address} {value : Option (List Char)}
    (hheader : scope.headers.lookup "x-forwarded-for" = value)
    (hhops : sent value = forged ++ peer.text :: inner.map Address.text) :
    client_ip_from_scope scope (inner.length + 1) = peer.text := by
  cases value with
  | none => simp [sent] at hhops
  | some value =>
      have hsent : hops value = forged ++ peer.text :: inner.map Address.text := hhops
      have hvalue : value ≠ [] := by
        rintro rfl
        simp [hops, strip] at hsent
      have hne : hops value ≠ [] := by simp [hsent]
      have hindex : (max (((hops value).length : Int) - (inner.length + 1)) 0).toNat = forged.length := by
        rw [hsent]
        simp only [List.length_append, List.length_cons, List.length_map]
        omega
      have hcount : ¬ (inner.length : Int) + 1 ≤ 0 := by omega
      simp only [client_ip_from_scope, hheader, if_neg hcount, if_neg hvalue, if_neg hne, hindex]
      simp [hsent]

-- With as many proxies as the middleware trusts, the client is the peer that the outermost
-- one saw, and no header that this peer sends moves its requests to another key.
theorem forged_header_keeps_key {self : RateLimitMiddleware} {forged value : Option (List Char)}
    {peer : Address} {inner : List Address} (hforwarded : Forwarded forged (peer :: inner) value)
    (hproxies : self.trusted_proxy_count = inner.length + 1) {scope : Scope}
    (hheader : scope.headers.lookup "x-forwarded-for" = value) :
    client_ip_from_scope scope self.trusted_proxy_count = peer.text ∧
      ∀ (forged' value' : Option (List Char)) (inner' : List Address) (scope' : Scope) (now now' : ℚ)
        (r r' : Request), Forwarded forged' (peer :: inner') value' →
        self.trusted_proxy_count = inner'.length + 1 →
        scope'.headers.lookup "x-forwarded-for" = value' →
        self.request scope now = some r → self.request scope' now' = some r' →
        r.bucket = r'.bucket → r.key = r'.key := by
  have hclient : ∀ {forged value : Option (List Char)} {inner : List Address} {scope : Scope},
      Forwarded forged (peer :: inner) value → self.trusted_proxy_count = inner.length + 1 →
      scope.headers.lookup "x-forwarded-for" = value →
      client_ip_from_scope scope self.trusted_proxy_count = peer.text := by
    intro forged value inner scope hforwarded hproxies hheader
    rw [hproxies]
    exact client_ip_of_hops scope hheader hforwarded.hops
  have hrequest : ∀ {scope : Scope} {now : ℚ} {r : Request}, self.request scope now = some r →
      r.client_ip = client_ip_from_scope scope self.trusted_proxy_count := by
    intro scope now r h
    rw [RateLimitMiddleware.request] at h
    split at h
    · obtain ⟨bucket, -, rfl⟩ := Option.map_eq_some_iff.mp h
      rfl
    · cases h
  refine ⟨hclient hforwarded hproxies hheader, ?_⟩
  intro forged' value' inner' scope' now now' r r' hforwarded' hproxies' hheader' hr hr' hbucket
  refine key_inj.mpr ⟨hbucket, ?_⟩
  rw [hrequest hr, hrequest hr', hclient hforwarded hproxies hheader,
    hclient hforwarded' hproxies' hheader']

def addressOf (c : Char) (hcomma : c ≠ ',') (hblank : isSpace c = false) : Address where
  text := [c]
  nonempty := List.cons_ne_nil _ _
  no_comma := fun h => hcomma (List.mem_singleton.mp h).symm
  no_blank := fun _ hd => List.mem_singleton.mp hd ▸ hblank

-- Behind two proxies, a client that sends a hop of its own and an empty one.
theorem forged_header_keeps_key_two :
    client_ip_from_scope
      { type := "http", method := "POST".toList, path := "/telemetry".toList, client := some ['p'],
        headers := [("x-forwarded-for", ['x', ',', ',', ' ', '9', ',', 'q'])] } 2 = ['9'] := by
  have hblank : Blanks [' '] := fun c hc => by
    rw [List.mem_singleton.mp hc]
    decide
  have hnone : Blanks [] := fun c hc => nomatch hc
  have hpeer : Appended (some ['x', ',']) (addressOf '9' (by decide) (by decide))
      ['x', ',', ',', ' ', '9'] := .behind ['x', ','] _ [' '] [] hblank hnone
  have hproxy : Appended (some ['x', ',', ',', ' ', '9']) (addressOf 'q' (by decide) (by decide))
      ['x', ',', ',', ' ', '9', ',', 'q'] := .behind ['x', ',', ',', ' ', '9'] _ [] [] hnone hnone
  let self : RateLimitMiddleware :=
    { max_requests := 600, console_max_requests := 60, window_seconds := 60, trusted_proxy_count := 2 }
  have hproxies : self.trusted_proxy_count =
      ([addressOf 'q' (by decide) (by decide)].length : Int) + 1 := rfl
  exact (forged_header_keeps_key (.cons hpeer (.cons hproxy (.nil _))) hproxies rfl).1

end FleetOps.Middleware
