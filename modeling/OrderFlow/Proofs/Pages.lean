import OrderFlow.Operation.Lookup
import OrderFlow.Proofs.Store.Reads
import OrderFlow.Proofs.Transact

/-! # Pages of dead letters

    Whoever asks for the newest dead letters says how many, and gets a page.
    All pages are cut from one listing: that of all live letters, the newest
    first and by order id where two are equally new (`Listing`).

    Which letters are live says the transaction that asks: what it has staged
    about an order counts, and where it has staged nothing, what is committed
    (`Store.Live`).  Since nothing else decides what the listing is
    (`Listing.eq`), the tables may keep their entries in any order, and a page
    is always the beginning of a longer one (`IsPage.prefix_of_le`). -/

namespace OrderFlow

open Attempt

/-! ## The one listing -/

/-- **The listing** of all letters that are live. -/
structure Listing (live : DeadLetter → Prop) (letters : List DeadLetter) : Prop where
  mem : ∀ d, d ∈ letters ↔ live d
  /-- No order is listed twice. -/
  once : (letters.map (·.order)).Nodup
  sorted : letters.Pairwise fun a b =>
    b.failedAt < a.failedAt ∨
      (a.failedAt = b.failedAt ∧ a.order.uuid.toNat < b.order.uuid.toNat)

/-- **A page** of a listing, for a limit that was asked for. -/
structure IsPage (letters : List DeadLetter) (limit : Nat) (page : List DeadLetter) : Prop where
  beginning : page <+: letters
  length : page.length = min letters.length (min (max limit 1) 200)

theorem DeadLetter.listingKey_lt_iff (a b : DeadLetter) : a.listingKey < b.listingKey ↔
    b.failedAt < a.failedAt ∨
      (a.failedAt = b.failedAt ∧ a.order.uuid.toNat < b.order.uuid.toNat) := by
  unfold listingKey
  rw [Prod.Lex.toLex_lt_toLex]
  simp

section pages
variable {live : DeadLetter → Prop} {letters letters' page page' : List DeadLetter}
  {limit limit' : Nat}

/-- **What is live** decides what the listing is. -/
theorem Listing.eq (h : Listing live letters) (h' : Listing live letters') :
    letters = letters' := by
  have hsorted {l : List DeadLetter} (hl : Listing live l) :
      l.Pairwise fun a b => a.listingKey < b.listingKey :=
    hl.sorted.imp fun hab => (DeadLetter.listingKey_lt_iff _ _).mpr hab
  apply eq_of_pairwise_lt (hsorted h) (hsorted h')
  intro d
  rw [h.mem, h'.mem]

theorem isPage_take (letters : List DeadLetter) (limit : Nat) :
    IsPage letters limit (letters.take (DeadLetter.clampLimit limit)) where
  beginning := List.take_prefix _ _
  length := by
    rw [List.length_take, Nat.min_comm]
    rfl

/-- **A page is the beginning** of every page for a greater limit. -/
theorem IsPage.prefix_of_le (h : IsPage letters limit page) (h' : IsPage letters limit' page')
    (hle : limit ≤ limit') : page <+: page' := by
  apply List.prefix_of_prefix_length_le h.beginning h'.beginning
  rw [h.length, h'.length]
  omega

end pages

/-! ## Live letters -/

namespace Store

/-- **Live** for a transaction: what it has staged about the order, and what is
    committed where it has staged nothing.  An order whose letter it has taken
    out has something staged, and no live letter. -/
def Live (s : Store) (tx : Transaction) (d : DeadLetter) : Prop :=
  tx.deadLetters.find? d.order = some (some d) ∨
    (tx.deadLetters.find? d.order = none ∧ s.deadLetters.find? d.order = some d)

section live
variable {s s' : Store} {t : TxId} {tx tx' : Transaction}

theorem letterIn_eq_some_iff {d : DeadLetter} :
    s.letterIn tx d.order = some d ↔ s.Live tx d := by
  unfold letterIn Live
  cases tx.deadLetters.find? d.order <;> simp

/-- What a transaction lists is the listing of what is live for it. -/
theorem Orderly.listing (h : s.Orderly) (htx : tx.Orderly) :
    Listing (s.Live tx) (s.lettersIn tx) where
  mem d := by rw [h.mem_lettersIn_iff htx, letterIn_eq_some_iff]
  once := h.lettersIn_nodup htx
  sorted := (h.lettersIn_sorted htx).imp fun hab => (DeadLetter.listingKey_lt_iff _ _).mp hab

/-- The same entries in another order: the same letters are live. -/
theorem Orderly.live_iff_of_perm (h : s.Orderly) (htx : tx.Orderly)
    (hcommitted : s'.deadLetters.Perm s.deadLetters)
    (hstaged : tx'.deadLetters.Perm tx.deadLetters) (d : DeadLetter) :
    s'.Live tx' d ↔ s.Live tx d := by
  unfold Live
  rw [h.deadLetters.distinct.find?_of_perm hcommitted, htx.deadLetters.find?_of_perm hstaged]

/-- What is staged about an order decides about its letter and about no other. -/
theorem live_putLetter {key : LockKey} {id : OrderId} {staged : Option DeadLetter}
    (hp : Progress t s tx s' ((tx.hold key).putLetter id staged))
    (hown : ∀ d, staged = some d → d.order = id) (d : DeadLetter) :
    s'.Live ((tx.hold key).putLetter id staged) d ↔
      staged = some d ∨ (d.order ≠ id ∧ s.Live tx d) := by
  have hput : ((tx.hold key).putLetter id staged).deadLetters = tx.deadLetters.put id staged := by
    simp [Transaction.putLetter]
  unfold Live
  rw [hput, hp.deadLetters, Table.find?_put]
  by_cases hid : id = d.order
  · simp [hid]
  · have hother : staged ≠ some d := fun hd => hid (hown d hd).symm
    simp [hid, hother, Ne.symm hid]

/-! ## What the listings of a transaction answer -/

/-- **Paged**: what an open transaction answers about dead letters comes from
    this one listing. -/
structure Paged (s : Store) (t : TxId) (tx : Transaction) (letters : List DeadLetter) : Prop where
  listing : Listing (s.Live tx) letters
  page : ∀ limit, ∃ page, IsPage letters limit page ∧
    latestLetters t limit s = some (.ok page, s)
  /-- A shorter page is the beginning of a longer one. -/
  grows : ∀ {limit limit' page page'}, limit ≤ limit' →
    latestLetters t limit s = some (.ok page, s) →
    latestLetters t limit' s = some (.ok page', s) → page <+: page'
  /-- Only what is live matters, whichever transaction asks in whichever store. -/
  determined : ∀ {s' t' tx'}, s'.Orderly → s'.opened.find? t' = some tx' →
    (∀ d, s'.Live tx' d ↔ s.Live tx d) →
    ∀ limit, (latestLetters t' limit s').map Prod.fst = (latestLetters t limit s).map Prod.fst
  /-- In what order the tables keep their entries does not matter. -/
  shuffled : ∀ {s' t' tx'}, s'.Orderly → s'.opened.find? t' = some tx' →
    s'.deadLetters.Perm s.deadLetters → tx'.deadLetters.Perm tx.deadLetters →
    ∀ limit, (latestLetters t' limit s').map Prod.fst = (latestLetters t limit s).map Prod.fst
  /-- What the transaction writes takes the place of what was there. -/
  overwrites : ∀ {d r s'}, writeLetter t d s = some (r, s') →
    ∃ tx', s'.opened.find? t = some tx' ∧
      ∀ d', s'.Live tx' d' ↔ d' = d ∨ (d'.order ≠ d.order ∧ s.Live tx d')
  /-- What the transaction takes out is gone. -/
  removes : ∀ {id r s'}, dropLetter t id s = some (r, s') →
    ∃ tx', s'.opened.find? t = some tx' ∧
      ∀ d', s'.Live tx' d' ↔ d'.order ≠ id ∧ s.Live tx d'
  /-- Its commit makes the same letters live for everybody. -/
  commits : ∀ {s'}, commit t s = some (.ok (), s') → ∀ d, s'.Live {} d ↔ s.Live tx d

theorem Orderly.latestLetters_eq (h : s.Orderly) (htx : s.opened.find? t = some tx) (limit : Nat) :
    latestLetters t limit s =
      some (.ok ((s.lettersIn tx).take (DeadLetter.clampLimit limit)), s) :=
  (h.sees htx).latest limit

theorem Orderly.live_of_commit (h : s.Orderly) (htx : s.opened.find? t = some tx)
    (hcommit : commit t s = some (.ok (), s')) (d : DeadLetter) : s'.Live {} d ↔ s.Live tx d := by
  obtain ⟨tx₀, htx₀, ⟨-, -, rfl⟩ | ⟨hr, -⟩⟩ := commit_eq_some hcommit
  · obtain rfl : tx = tx₀ := Option.some.inj (htx.symm.trans htx₀)
    have hafter : ((s.absorb tx).close t).deadLetters.find? d.order = s.letterIn tx d.order :=
      deadLetters_absorb (h.each htx) s d.order
    rw [← letterIn_eq_some_iff, ← letterIn_eq_some_iff, ← hafter]
    rfl
  · cases hr

/-- Where the same letters are live, the same page is answered. -/
theorem Orderly.latestLetters_of_live (h : s.Orderly) (htx : s.opened.find? t = some tx)
    {t' : TxId} (h' : s'.Orderly) (htx' : s'.opened.find? t' = some tx')
    (hlive : ∀ d, s'.Live tx' d ↔ s.Live tx d) (limit : Nat) :
    (latestLetters t' limit s').map Prod.fst = (latestLetters t limit s).map Prod.fst := by
  have hlisting := h'.listing (h'.each htx')
  rw [funext fun d => propext (hlive d)] at hlisting
  have heq : s'.lettersIn tx' = s.lettersIn tx := hlisting.eq (h.listing (h.each htx))
  rw [h.latestLetters_eq htx, h'.latestLetters_eq htx', heq]
  rfl

/-- **An open transaction** answers by pages of the one listing. -/
theorem Orderly.paged (h : s.Orderly) (htx : s.opened.find? t = some tx) :
    s.Paged t tx (s.lettersIn tx) where
  listing := h.listing (h.each htx)
  page limit := ⟨_, isPage_take _ limit, h.latestLetters_eq htx limit⟩
  grows := by
    intro limit limit' page page' hle hpage hpage'
    rw [h.latestLetters_eq htx] at hpage hpage'
    cases hpage
    cases hpage'
    exact (isPage_take _ limit).prefix_of_le (isPage_take _ limit') hle
  determined h' htx' hlive limit := h.latestLetters_of_live htx h' htx' hlive limit
  shuffled h' htx' hcommitted hstaged limit :=
    h.latestLetters_of_live htx h' htx' (h.live_iff_of_perm (h.each htx) hcommitted hstaged) limit
  overwrites := by
    intro d r s' hwrite
    obtain ⟨tx₀, -, hp⟩ := writeLetter_eq_some hwrite
    obtain rfl := hp.tx_eq htx
    refine ⟨_, hp.after, fun d' => ?_⟩
    rw [live_putLetter hp (by rintro d' hd; cases hd; rfl), Option.some.injEq, eq_comm]
  removes := by
    intro id r s' hdrop
    obtain ⟨tx₀, -, hp⟩ := dropLetter_eq_some hdrop
    obtain rfl := hp.tx_eq htx
    refine ⟨_, hp.after, fun d' => ?_⟩
    rw [live_putLetter hp (by rintro d' hd; cases hd)]
    simp
  commits hcommit := h.live_of_commit htx hcommit

end live

end Store

/-! ## Looking dead letters up -/

namespace World

/-- **Looks up**: the look-up of dead letters answers from this one listing of
    what is committed. -/
structure LooksUp (w : World) (letters : List DeadLetter) : Prop where
  listing : Listing (w.store.Live {}) letters
  /-- It fails only if the store is unavailable when it begins or ends. -/
  page : ∀ limit, ∃ page r w', IsPage letters limit page ∧
    lookUpDeadLetters limit w = some (r, w') ∧
    (r = .ok page ∨ (r = .error (.store Store.offline) ∧
      (w.nextDisturbance.store.available = false ∨
        w.opening.nextDisturbance.store.available = false)))
  /-- A shorter page is the beginning of a longer one, and of the one for the
      same limit wherever the same letters are live. -/
  grows : ∀ {w' limit limit' page page'}, w'.store.Orderly →
    (∀ d, w'.store.Live {} d ↔ w.store.Live {} d) → limit ≤ limit' →
    (lookUpDeadLetters limit w).map Prod.fst = some (.ok page) →
    (lookUpDeadLetters limit' w').map Prod.fst = some (.ok page') → page <+: page'

variable {w : World}

/-- Without locks and without writes, a look-up answers from what is committed. -/
theorem lookUpDeadLetters_eq (hw : w.store.Orderly) (limit : Nat) :
    ∃ r w', lookUpDeadLetters limit w = some (r, w') ∧
      (r = .ok (w.store.listLetters.take (DeadLetter.clampLimit limit)) ∨
        (r = .error (.store Store.offline) ∧
          (w.nextDisturbance.store.available = false ∨
            w.opening.nextDisturbance.store.available = false))) := by
  have hletters : w.opening.store.lettersIn {} = w.store.listLetters := by
    rw [← (unchanged_opening w).sameTables.lettersIn, Store.lettersIn_empty]
  have hbody (t : TxId) : Total (Ready t {} [] w.opening)
      (Call.inStore (Store.latestLetters t limit))
      (fun a w' => ∃ tx left, (a = w.store.listLetters.take (DeadLetter.clampLimit limit) ∧
        left = w.opening) ∧ Ready t tx [] left w')
      (fun _ w' => ∃ tx left, False ∧ Ready t tx [] left w') := by
    intro w₁ hready
    have hcall := Call.inStore_of_eq_some
      (hready.store.orderly.latestLetters_eq hready.store.opened limit)
    rw [hready.store.sameTables.lettersIn, hletters] at hcall
    exact Or.inl ⟨_, _, hcall, {}, w.opening, ⟨rfl, rfl⟩, hready⟩
  have hfree : w.store.Unheld [] := by
    intro key hkey
    cases hkey
  obtain ⟨r, w', hcall, hend⟩ := transact_transacted
    (Q := fun a _ left => a = w.store.listLetters.take (DeadLetter.clampLimit limit) ∧
      left = w.opening)
    (E := fun _ _ => False) hw hfree hbody
  refine ⟨r, w', hcall, ?_⟩
  cases hend with
  | notBegun hoffline => exact Or.inr ⟨rfl, Or.inl hoffline⟩
  | failed hfalse => exact hfalse.elim
  | refused hq hoffline =>
    obtain ⟨-, rfl⟩ := hq
    exact Or.inr ⟨rfl, Or.inr hoffline⟩
  | committed hq => exact Or.inl (congrArg Except.ok hq.1)

/-- What is looked up, when it is answered. -/
theorem lookUpDeadLetters_ok (hw : w.store.Orderly) {limit : Nat} {page : List DeadLetter}
    (hpage : (lookUpDeadLetters limit w).map Prod.fst = some (.ok page)) :
    page = w.store.listLetters.take (DeadLetter.clampLimit limit) := by
  obtain ⟨r, w', hcall, rfl | ⟨rfl, -⟩⟩ := lookUpDeadLetters_eq hw limit
  · rw [hcall] at hpage
    cases hpage
    rfl
  · rw [hcall] at hpage
    cases hpage

theorem committed_listing (hw : w.store.Orderly) :
    Listing (w.store.Live {}) w.store.listLetters := by
  have h := hw.listing Transaction.orderly_empty
  rwa [Store.lettersIn_empty] at h

theorem looksUp (hw : w.store.Orderly) : w.LooksUp w.store.listLetters where
  listing := committed_listing hw
  page limit := by
    obtain ⟨r, w', hcall, hr⟩ := lookUpDeadLetters_eq hw limit
    exact ⟨_, r, w', isPage_take _ limit, hcall, hr⟩
  grows := by
    intro w' limit limit' page page' hw' hlive hle hpage hpage'
    have hlisting := committed_listing hw'
    rw [funext fun d => propext (hlive d)] at hlisting
    obtain rfl := lookUpDeadLetters_ok hw hpage
    obtain rfl := lookUpDeadLetters_ok hw' hpage'
    rw [hlisting.eq (committed_listing hw)]
    exact (isPage_take _ limit).prefix_of_le (isPage_take _ limit') hle

/-- **Pages of one listing.**  Every open transaction answers by pages of the
    listing of what is live for it, and a look-up by pages of the listing of
    what is committed. -/
theorem letters_are_paged (hw : w.store.Orderly) :
    (∀ {t tx}, w.store.opened.find? t = some tx → ∃ letters, w.store.Paged t tx letters) ∧
      ∃ letters, w.LooksUp letters :=
  ⟨fun htx => ⟨_, hw.paged htx⟩, _, looksUp hw⟩

/-- The letter about the order with this number, after another failure. -/
def laterLetter (n : Nat) : DeadLetter :=
  ⟨⟨.ofNat n⟩, "address unknown", 4, Instant.newYear2024.later (.ofSeconds 60)⟩

/-- Transaction 1 commits three letters, two of them equally new.  Transaction 2
    writes over one of those and takes out the newest one. -/
def rewrittenLetters : List Store.Move := [
  .event .start,
  .event (.ask 1 (.writeLetter (Store.numberedLetter 5))),
  .event (.ask 1 (.writeLetter (Store.numberedLetter 4))),
  .event (.ask 1 (.writeLetter (laterLetter 6))),
  .event (.commit 1),
  .event .start,
  .event (.ask 2 (.writeLetter (laterLetter 5))),
  .event (.ask 2 (.dropLetter ⟨.ofNat 6⟩))]

theorem letters_are_paged_rewritten :
    ∃ trail s tx, Store.trace rewrittenLetters = some (trail, s) ∧
      s.opened.find? 2 = some tx ∧
      s.lettersIn tx = [laterLetter 5, Store.numberedLetter 4] ∧
      s.listLetters = [laterLetter 6, Store.numberedLetter 4, Store.numberedLetter 5] ∧
      (∃ letters, s.Paged 2 tx letters) ∧ ∃ letters, LooksUp { store := s } letters := by
  have hruns : (Store.trace rewrittenLetters).isSome = true := rfl
  obtain ⟨⟨trail, s⟩, hrun⟩ := Option.isSome_iff_exists.mp hruns
  have hseen : ((Store.trace rewrittenLetters).bind fun c => (c.2.opened.find? 2).map fun tx =>
      (c.2.lettersIn tx, c.2.listLetters)) =
        some ([laterLetter 5, Store.numberedLetter 4],
          [laterLetter 6, Store.numberedLetter 4, Store.numberedLetter 5]) := rfl
  rw [hrun, Option.bind_some] at hseen
  obtain ⟨tx, htx, hlistings⟩ := Option.map_eq_some_iff.mp hseen
  obtain ⟨hstaged, hcommitted⟩ := Prod.mk.inj hlistings
  have hs : s.Orderly := (Store.happened_of_trace hrun).kept.orderly
  obtain ⟨hpaged, hlooksUp⟩ := letters_are_paged (w := { store := s }) hs
  exact ⟨trail, s, tx, hrun, htx, hstaged, hcommitted, hpaged htx, hlooksUp⟩

end World

end OrderFlow
