import BeaconDex.Backend.AssetIdGrammar
import BeaconDex.Backend.LiveBook
import BeaconDex.Frontend.OrderBook

/-!
# Placing an order

`LimitTab` of `frontend/components/TradePanel.tsx`: two tokens, two amounts as they are
typed, and the checks of `frontend/lib/validate.ts` on them before the backend is asked
to build the order.

`typed_order_shown` follows what was typed all the way: through the form, the request,
the datum, the ledger and the cache to the row that a taker sees.  Until it is filled the
row shows the two amounts as they were typed, but for blanks and redundant zeros; and
after any fills, what they have left of them.

The dates of the runtime are a parameter: `getTime` reads a text, and answers `none` where
the runtime has no number.

## What the form checks

The amounts are read by `toRawAmount`, which turns away a text with more decimals than
its token has, and so never rounds.  What it has read is checked again as the text of an
integer, by `validateCreateOrder`, and all problems are shown together.
-/

namespace BeaconDex.Frontend

open Library
open Backend hiding requiredPayment maxTakeForSpend

/-! ## The checks of the form -/

/-- `/^(lovelace|[0-9a-f]{56}\.[0-9a-f]{0,64})$/`, in the form and in the backend. -/
def matchesAssetId (id : Str) : Bool :=
  id = "lovelace".toList || decide (IsPolicyHex (id.take 56)) &&
    match id.drop 56 with
    | '.' :: name => IsNameHex name
    | _ => false

/-- `/^[0-9]+$/` -/
def matchesDigits (text : Str) : Bool := !text.isEmpty && text.all Char.isDigit

/-- What the form hands to its validation: texts, as they were typed. -/
structure CreateOrderInput where
  offerAsset : Str
  offerAmount : Str
  askAsset : Str
  askAmount : Str
  paymentAddress : Str
  expiration : Str

/-- What is sent: raw amounts, and the expiration in milliseconds. -/
structure CreateOrderValidated where
  offerAsset : Str
  offerAmount : Str
  askAsset : Str
  askAmount : Str
  paymentAddress : Option Str
  expiration : Option ℤ
  deriving DecidableEq

/-- One error, if the check fails. -/
def errorIf (fails : Bool) (message : String) : List Str := if fails then [message.toList] else []

section Checks

variable (getTime : Str → Option ℤ) (now : ℤ)

/-- The expiration that was entered, and what is wrong with it. -/
def readExpiration (text : Str) : List Str × Option ℤ :=
  if text = [] then ([], none)
  else
    match getTime text with
    | none => (["expiration is not a valid date".toList], none)
    | some ms =>
        if ms ≤ now then (["expiration must be in the future".toList], none) else ([], some ms)

/-- Amounts are raw integer units. -/
def validateCreateOrder (input : CreateOrderInput) : Except (List Str) CreateOrderValidated :=
  let notPositive (raw : Str) : Bool := !matchesDigits raw || decide (bigInt raw ≤ 0)
  let expiration := readExpiration getTime now input.expiration
  let errors :=
    errorIf (!matchesAssetId input.offerAsset)
      "offered asset must be 'lovelace' or policyIdHex.assetNameHex" ++
    errorIf (!matchesAssetId input.askAsset)
      "requested asset must be 'lovelace' or policyIdHex.assetNameHex" ++
    errorIf (input.offerAsset = input.askAsset) "offered and requested assets must differ" ++
    errorIf (notPositive input.offerAmount)
      "offered amount must be a positive integer (raw on-chain units)" ++
    errorIf (notPositive input.askAmount)
      "requested amount must be a positive integer (raw on-chain units)" ++
    expiration.1
  if errors = [] then
    .ok {
      offerAsset := input.offerAsset
      offerAmount := input.offerAmount
      askAsset := input.askAsset
      askAmount := input.askAmount
      paymentAddress := if trim input.paymentAddress = [] then none else trim input.paymentAddress
      expiration := expiration.2 }
  else .error errors

/-- What is entered, with the decimals of the two tokens and what the wallet has of the
first.  A token that is not chosen is empty. -/
structure LimitForm where
  sellAsset : Str
  buyAsset : Str
  sellAmount : Str
  buyAmount : Str
  sellDecimals : ℕ
  buyDecimals : ℕ
  sellBalance : Option ℤ
  paymentAddress : Str
  expiration : Str
  allowPartialFill : Bool

/-- An amount, zero where nothing is entered. -/
def readAmount (text : Str) (decimals : ℕ) : Except Str ℤ :=
  toRawAmount (if text = [] then "0".toList else text) decimals

/-- `onSubmit`, with a wallet connected: the problems it shows, or what it sends. -/
def LimitForm.onSubmit (form : LimitForm) : Except (List Str) CreateOrderValidated :=
  let offerRaw := readAmount form.sellAmount form.sellDecimals
  let askRaw := readAmount form.buyAmount form.buyDecimals
  let problems :=
    errorIf (form.sellAsset = []) "choose the token you sell" ++
    errorIf (form.buyAsset = []) "choose the token you want" ++
    (match offerRaw with
      | .error message => ["sell amount: ".toList ++ message]
      | .ok _ => []) ++
    (match askRaw with
      | .error message => ["buy amount: ".toList ++ message]
      | .ok _ => []) ++
    errorIf (form.sellAsset ≠ [] ∧ form.sellBalance.any fun balance =>
        decide (balance < offerRaw.toOption.getD 0))
      "sell amount exceeds your wallet balance"
  if problems = [] then
    validateCreateOrder getTime now {
      offerAsset := form.sellAsset
      offerAmount := showInt (offerRaw.toOption.getD 0)
      askAsset := form.buyAsset
      askAmount := showInt (askRaw.toOption.getD 0)
      paymentAddress := form.paymentAddress
      expiration := form.expiration }
  else .error problems

end Checks

/-! ## The request -/

/-- `createOrderBody`, and what `POST /tx/create-order` makes of it; nothing where the
schema is not met. -/
def createOrderBody (wallet : WalletContext) (value : CreateOrderValidated)
    (allowPartialFill : Bool) : Option CreateOrderParams :=
  if matchesAssetId value.offerAsset ∧ matchesAssetId value.askAsset ∧
      matchesDigits value.offerAmount ∧ matchesDigits value.askAmount ∧
      value.paymentAddress ≠ some [] ∧ value.expiration.all (0 < ·) then
    some {
      wallet := wallet
      paymentAddress := value.paymentAddress
      offerAsset := value.offerAsset
      offerAmount := bigInt value.offerAmount
      askAsset := value.askAsset
      askAmount := bigInt value.askAmount
      expiration := value.expiration.map .finite
      allowPartialFill := some allowPartialFill }
  else none

/-!
## What an accepted form sends

The form's checks inverted, and what the server's schema makes of the request.
-/

section Sent

variable {getTime : Str → Option ℤ} {now : ℤ} {form : LimitForm} {value : CreateOrderValidated}
variable {text : Str} {decimals : ℕ} {raw offerRaw askRaw : ℤ}

theorem errorIf_eq_nil {fails : Bool} {message : String} :
    errorIf fails message = [] ↔ fails = false := by
  cases fails <;> simp [errorIf]

theorem bigInt_showInt (n : ℕ) : bigInt (showInt n) = n := by
  rw [showInt_natCast, bigInt, Backend.ofDigitChars_decimal]

/-- A number that is written out passes the check for digits. -/
theorem matchesDigits_showInt (n : ℕ) : matchesDigits (showInt n) = true := by
  rw [showInt_natCast, matchesDigits, Backend.all_isDigit_decimal]
  simp [decimal]

/-- Amounts that are read are not negative. -/
theorem exists_nat_of_toRawAmount (h : toRawAmount text decimals = .ok raw) : ∃ n : ℕ, raw = n := by
  obtain ⟨whole, frac, -, -, -, -, -, rfl⟩ := toRawAmount_eq_ok.mp h
  exact ⟨_, rfl⟩

/-- A positive amount was entered. -/
theorem toRawAmount_of_readAmount (h : readAmount text decimals = .ok raw) (hpos : 0 < raw) :
    toRawAmount text decimals = .ok raw := by
  unfold readAmount at h
  split at h
  · -- nothing entered is zero
    obtain ⟨hvalue, -⟩ := fromRawAmount_toRawAmount h
    have hzero : decimalValue (trim "0".toList) = 0 := by
      have hwhole : wholePart (trim "0".toList) = "0".toList := by decide
      have hfraction : fraction (trim "0".toList) = [] := by decide
      have hdigits : Nat.ofDigitChars 10 "0".toList 0 = 0 := rfl
      rw [decimalValue, hwhole, hfraction, hdigits]
      simp
    rw [hzero, zero_mul, Int.cast_eq_zero] at hvalue
    omega
  · exact h

/-- **What a form sends**: its two amounts in raw units, both positive, written out again
as texts, with the two asset ids, the address unless it is blank, and the expiration in
milliseconds. -/
structure LimitForm.Sends (getTime : Str → Option ℤ) (now : ℤ) (form : LimitForm)
    (value : CreateOrderValidated) (offerRaw askRaw : ℤ) : Prop where
  sells : toRawAmount form.sellAmount form.sellDecimals = .ok offerRaw
  buys : toRawAmount form.buyAmount form.buyDecimals = .ok askRaw
  offer_pos : 0 < offerRaw
  ask_pos : 0 < askRaw
  sellAsset : matchesAssetId form.sellAsset = true
  buyAsset : matchesAssetId form.buyAsset = true
  expiration : (readExpiration getTime now form.expiration).1 = []
  value_eq : value = {
    offerAsset := form.sellAsset
    offerAmount := showInt offerRaw
    askAsset := form.buyAsset
    askAmount := showInt askRaw
    paymentAddress := if trim form.paymentAddress = [] then none else trim form.paymentAddress
    expiration := (readExpiration getTime now form.expiration).2 }

/-- Past a check without errors. -/
theorem ite_error_eq_ok {α ε : Type} {ok : Prop} [Decidable ok] {answer : Except ε α} {errors : ε}
    {a : α} : (if ok then answer else .error errors) = .ok a ↔ ok ∧ answer = .ok a := by
  split_ifs with h <;> simp [h]

/-- What the form sends are the amounts that were read from it, in the units of the chain. -/
theorem LimitForm.exists_sends (h : form.onSubmit getTime now = .ok value) :
    ∃ offerRaw askRaw, form.Sends getTime now value offerRaw askRaw := by
  simp only [LimitForm.onSubmit, validateCreateOrder, ite_error_eq_ok, List.append_eq_nil_iff,
    errorIf_eq_nil] at h
  obtain ⟨⟨⟨⟨-, hsell⟩, hbuy⟩, -⟩,
    ⟨⟨⟨⟨⟨hsellAsset, hbuyAsset⟩, -⟩, hoffer⟩, hask⟩, hexpiration⟩, hvalue⟩ := h
  cases hsellAmount : readAmount form.sellAmount form.sellDecimals with
  | error message => simp [hsellAmount] at hsell
  | ok offerRaw =>
      cases hbuyAmount : readAmount form.buyAmount form.buyDecimals with
      | error message => simp [hbuyAmount] at hbuy
      | ok askRaw =>
          rw [hsellAmount] at hoffer hvalue
          rw [hbuyAmount] at hask hvalue
          obtain ⟨m, rfl⟩ := exists_nat_of_toRawAmount hsellAmount
          obtain ⟨n, rfl⟩ := exists_nat_of_toRawAmount hbuyAmount
          simp only [Except.toOption, Option.getD_some, Bool.or_eq_false_iff, Bool.not_eq_false',
            bigInt_showInt, decide_eq_false_iff_not, not_le] at hoffer hask hsellAsset hbuyAsset
          exact ⟨m, n, toRawAmount_of_readAmount hsellAmount hoffer.2,
            toRawAmount_of_readAmount hbuyAmount hask.2, hoffer.2, hask.2, hsellAsset, hbuyAsset,
            hexpiration, (Except.ok.inj hvalue).symm⟩

/-- **The backend takes what the form sends.** -/
theorem LimitForm.Sends.body (h : form.Sends getTime now value offerRaw askRaw) (hnow : 0 ≤ now)
    (wallet : WalletContext) :
    createOrderBody wallet value form.allowPartialFill = some {
      wallet := wallet
      paymentAddress := value.paymentAddress
      offerAsset := form.sellAsset
      offerAmount := offerRaw
      askAsset := form.buyAsset
      askAmount := askRaw
      expiration := value.expiration.map .finite
      allowPartialFill := some form.allowPartialFill } := by
  obtain ⟨m, rfl⟩ := exists_nat_of_toRawAmount h.sells
  obtain ⟨n, rfl⟩ := exists_nat_of_toRawAmount h.buys
  have hlater : (readExpiration getTime now form.expiration).2.all (0 < ·) = true := by
    have herrors := h.expiration
    unfold readExpiration at herrors ⊢
    split
    · rfl
    · split
      · rfl
      · split
        · rfl
        · next hlt => simpa using by omega
  have haddress : (if trim form.paymentAddress = [] then none else some (trim form.paymentAddress)) ≠
      some [] := by
    split
    · nofun
    · next hne => simpa using hne
  rw [h.value_eq]
  unfold createOrderBody
  rw [if_pos ⟨h.sellAsset, h.buyAsset, matchesDigits_showInt m, matchesDigits_showInt n, haddress,
    hlater⟩]
  simp only [bigInt_showInt]

end Sent

/-!
## From the form to the book

The request is one the creation results are about; the order it creates is followed by
`LiveBook`; and the row that is shown is written as texts again.
-/

/-- **What a row says of a form** after `fills`: its tokens and its amounts, of which the
fills have taken their parts, and until then as they were typed. -/
structure ShowsTyped (form : LimitForm) (value : CreateOrderValidated) (fills : List Fill)
    (row : Order) : Prop where
  offered : offeredAssetId row = form.sellAsset
  requested : requestedAssetId row = form.buyAsset
  offeredAmount : (row.offeredAmount : ℚ) =
    decimalValue (trim form.sellAmount) * 10 ^ form.sellDecimals - totalTaken fills
  requestedAmount : (row.requestedAmount : ℚ) =
    decimalValue (trim form.buyAmount) * 10 ^ form.buyDecimals - totalRequired fills
  untouched : fills = [] →
    fromRawAmount row.offeredAmount form.sellDecimals =
        withoutRedundantZeros (trim form.sellAmount) ∧
      fromRawAmount row.requestedAmount form.buyDecimals =
        withoutRedundantZeros (trim form.buyAmount)
  expiration : row.expiration = value.expiration.map .finite
  allowPartialFill : row.allowPartialFill = form.allowPartialFill

/-- Dates are at most a hundred million days off the epoch. -/
def Dates (getTime : Str → Option ℤ) : Prop :=
  ∀ text t, getTime text = some t → t.natAbs ≤ 8640000000000000

section Shown

variable {d : Deployment} {mesh : Mesh} {scripts : ProtocolScripts} {reading : ChainReading}
variable {bopts : BuilderOptions} {iopts : IndexerOptions} {getTime : Str → Option ℤ}
variable {now offerRaw askRaw : ℤ} {form : LimitForm} {value : CreateOrderValidated}
variable {offer ask : AssetClass} {wallet : WalletContext} {params : CreateOrderParams}

/-- The request of a form is one of the interface. -/
theorem LimitForm.Sends.requestFor (h : form.Sends getTime now value offerRaw askRaw)
    (hnow : 0 ≤ now) (hdates : Dates getTime) (hoffer : Native offer) (hask : Native ask)
    (hsell : form.sellAsset = toApiAssetId (assetHex offer))
    (hbuy : form.buyAsset = toApiAssetId (assetHex ask))
    (hbody : createOrderBody wallet value form.allowPartialFill = some params) :
    RequestFor offer ask params := by
  obtain rfl := Option.some.inj ((h.body hnow wallet).symm.trans hbody)
  refine ⟨hoffer, hask, hsell, hbuy, fun t ht => ?_⟩
  obtain ⟨ms, hms, rfl⟩ := Option.map_eq_some_iff.mp ht
  have hread : getTime form.expiration = some ms := by
    rw [h.value_eq] at hms
    simp only [readExpiration] at hms
    split_ifs at hms with hempty
    split at hms
    · cases hms
    · next t htime =>
      split_ifs at hms
      exact htime.trans hms
  have hbound := hdates _ _ hread
  exact ⟨ms, rfl, toNumber_of_lt (by omega)⟩

/-- What a row that shows the remainder of the order says of its form. -/
theorem showsTyped_of_showsRemainder {k : KeyOrder} {origin : Output} {fills : List Fill}
    {row : Order}
    (hrow : ShowsRemainder reading k origin fills row)
    (h : form.Sends getTime now value offerRaw askRaw)
    (hoffered : toApiAssetId (assetHex k.offer) = form.sellAsset)
    (hrequested : toApiAssetId (assetHex k.ask) = form.buyAsset)
    (hofferAmount : k.offerAmount = offerRaw) (haskAmount : k.askAmount = askRaw)
    (hexpiration : k.expiration = value.expiration)
    (hallowed : k.allowPartialFill = form.allowPartialFill) :
    ShowsTyped form value fills row := by
  obtain ⟨hsold, hsellShown⟩ := fromRawAmount_toRawAmount h.sells
  obtain ⟨hbought, hbuyShown⟩ := fromRawAmount_toRawAmount h.buys
  have hleft := hrow.offeredAmount
  have howed := hrow.requestedAmount
  rw [hofferAmount] at hleft
  rw [haskAmount] at howed
  refine ⟨hrow.offeredAssetId_eq.trans hoffered, hrow.requestedAssetId_eq.trans hrequested, ?_, ?_,
    ?_, hexpiration ▸ hrow.expiration, hrow.allowPartialFill.trans hallowed⟩
  · rw [hleft, ← hsold]
    push_cast
    rfl
  · rw [howed, ← hbought]
    push_cast
    rfl
  · rintro rfl
    rw [hleft, howed, totalTaken, totalRequired, List.map_nil, List.map_nil, List.sum_nil, sub_zero,
      sub_zero]
    exact ⟨hsellShown, hbuyShown⟩

variable {history : History} {repo : OrdersRepo} {pass : Pass} {p : ChainProvider} {c : ChainState}
variable {utxo₀ utxo utxo' : Utxo} {txId : Bytes} {tx : Transaction} {i : ℕ} {origin : Output}
variable {submitted : List (Bytes × Transaction)} {lineage : BeaconDex.Lineage} {ref : OutRef}
variable {observed : List (ChainProvider × ChainState)} {text : Address → Str} {draft : TxDraft}
variable {summary : CreateSummary} {later shownAt : ℤ} {asked : JsNumber} {book : Orderbook}

/-- **What is typed is what is shown.**  Fill in the form, let the backend build what it
sends and submit it, let any transactions follow, and let the cache have gone through any
passes and repairs.  After a pass that sees the whole of a chain state with the live
order (confirmed, or already on the book), the page of its pair lists it until it
expires, with the tokens and the amounts that were typed, less what its fills have taken
and paid. -/
theorem typed_order_shown (hsubmit : form.onSubmit getTime now = .ok value) (hnow : 0 ≤ now)
    (hdates : Dates getTime) (hoffer : Native offer) (hask : Native ask)
    (hsell : form.sellAsset = toApiAssetId (assetHex offer))
    (hbuy : form.buyAsset = toApiAssetId (assetHex ask))
    (hdocumented : Documented d mesh scripts reading) (haddresses : ReadsAddresses mesh reading)
    (hfollows : Backend.Follows d iopts)
    (hhashes : Set.InjOn d.sha2_256 (beaconPreimages offer ask))
    (hdeposit : 0 ≤ bopts.depositLovelace)
    (hbody : createOrderBody wallet value form.allowPartialFill = some params)
    (hbuild : respondCreateOrder mesh scripts bopts later params = .ok (draft, summary))
    (hcreate : Step d utxo₀ (txId, tx) utxo)
    (hmint : mintBeaconsOk d.sha2_256 d.orderScriptHash d.policyId tx = some true)
    (hout : tx.outputs[i]? = some origin) (horigin : origin ∈ draft.outputs.map reading.output)
    (hrun : Run (Step d) utxo submitted utxo')
    (hlineage : submitted.foldl (follow d.orderScriptHash) ⟨some ⟨txId, i⟩, []⟩ = lineage)
    (htip : lineage.tip = some (reference ref))
    (hmaintained : Run (Maintains mesh iopts history) .empty observed repo)
    (hmirrors : Mirrors mesh reading text c utxo' ref) (hobserves : Observes iopts history p c)
    (hp : Faithful p c) (hlists : ListsAll p c (orderBeaconUnit iopts))
    (hsync : doSync mesh iopts p repo = .ok pass)
    (hsettled : repo.IsOpen (orderIdOf ref) ∨ Backend.Confirmed iopts c ref)
    (hbook : orderbook pass.repo asked (toPairId (assetHex offer) (assetHex ask)) = .ok book) :
    ∃ row, pass.repo.getOrder (orderIdOf ref) = some row ∧
      ShowsTyped form value lineage.fills row ∧
      (isOrderExpired row asked = false → notExpired shownAt row = true →
        row ∈ rows book shownAt) := by
  obtain ⟨offerRaw, askRaw, hsends⟩ := LimitForm.exists_sends hsubmit
  have hrequest := hsends.requestFor hnow hdates hoffer hask hsell hbuy hbody
  obtain ⟨o, k, names, pay, hterms, rfl, rfl, hne, -⟩ :=
    hrequest.exists_createdTerms hdocumented hdeposit hbuild
  obtain rfl : origin = reading.output o := by simpa [hterms.outputs] using horigin
  have hreadable : Readable d mesh scripts reading iopts k := by
    refine ⟨hdocumented, haddresses, hfollows, hhashes, ?_⟩
    have hwritten := haddresses.serializes _ _ hterms.deserialized hterms.paymentKey_ne
    rw [hterms.paymentKey, ← hterms.paymentStake] at hwritten
    exact hwritten
  have hbears : bearsBeacons d.policyId (reading.output o) = true :=
    bearsBeacons_eq_true.mpr (hterms.wellFormed.tokens_ne_zero d.policyId_ne_ada)
  obtain ⟨row, hrow, hstatus, hremainder⟩ := exists_row_of_order hreadable hcreate hmint hout hbears
    hterms.wellFormed.inline hrun hlineage htip hmaintained hmirrors hobserves hp hlists hsync
    hsettled
  obtain rfl := Option.some.inj ((hsends.body hnow wallet).symm.trans hbody)
  have hexpiration : k.expiration = value.expiration :=
    (Option.map_injective (fun _ _ h => JsNumber.finite.inj h) hterms.expiration).symm
  refine ⟨row, hrow, showsTyped_of_showsRemainder hremainder hsends hsell.symm hbuy.symm
    hterms.offerAmount hterms.askAmount hexpiration hterms.allowPartialFill,
    fun hexpired hshown => ?_⟩
  obtain ⟨hbid, hask'⟩ := mem_side_of_orderbook hbook hrow hstatus hremainder.pairId
    hremainder.offeredAssetId_eq hexpired
  have hside : row ∈ book.bids ++ book.asks := by
    rcases lt_trichotomy (toApiAssetId (assetHex k.offer)) (toApiAssetId (assetHex k.ask)) with
      hlt | heq | hgt
    · exact List.mem_append_left _ (hbid hlt)
    · exact absurd (hsell.trans (heq.trans hbuy.symm)) hterms.distinct
    · exact List.mem_append_right _ (hask' hgt)
  exact List.mem_filter.mpr ⟨hside, hshown⟩

end Shown

/-! Ten ADA for five tokens, typed with a zero and a blank too many. -/

namespace SampleForm

open BeaconDex.Sample (ownerKey sellerKey token sale orderOutput)
open SampleBatch (scripts opts now creation sellerWallet funds)
open SampleChain (orderAddress)
open SampleCreation (mesh reading)

def form : LimitForm where
  sellAsset := creation.offerAsset
  buyAsset := creation.askAsset
  sellAmount := "10.0".toList
  buyAmount := " 5".toList
  sellDecimals := 6
  buyDecimals := 0
  sellBalance := some 50000000
  paymentAddress := SampleChain.sellerAddress
  expiration := []
  allowPartialFill := true

def value : CreateOrderValidated where
  offerAsset := creation.offerAsset
  offerAmount := "10000000".toList
  askAsset := creation.askAsset
  askAmount := "5".toList
  paymentAddress := some SampleChain.sellerAddress
  expiration := none

/-- No date is ever read. -/
def noDates (_ : Str) : Option ℤ := none

set_option maxRecDepth 100000 in
theorem submits : form.onSubmit noDates now = .ok value := by decide

set_option maxRecDepth 100000 in
theorem sends : createOrderBody creation.wallet value form.allowPartialFill = some creation := by
  rw [createOrderBody, if_pos (by decide)]
  rfl

/-- The order that is built is the one on the chain. -/
theorem reading_created : reading.output SampleBatch.created = orderOutput sale 12000000 := by
  have hvalue : valueOf SampleBatch.amount = (orderOutput sale 12000000).value := by
    decide +kernel
  rw [ChainReading.output, orderOutput, SampleBatch.created, SampleCreation.documented.data_fields]
  exact congrArg₂ (fun address value => (⟨address, value, _, none⟩ : Output))
    SampleCreation.reading_orderAddress hvalue

set_option maxRecDepth 100000 in
theorem exists_created : ∃ draft, buildCreateOrder mesh scripts opts now creation = .ok draft ∧
    SampleBatch.created ∈ draft.outputs := by
  have hnames : (deriveBeaconNames mesh ADA (assetHex token) (hexOf ownerKey)).values =
      SampleBatch.names.map hexOf := by decide
  simp only [buildCreateOrder, parseAddress, bind, bind_eq_ok, orThrow_eq_ok, throwIf_eq_ok, pure,
    Except.pure, Except.ok.injEq]
  refine ⟨_, ⟨ADA, by decide, assetHex token, by decide, (), by decide, (), by decide, (),
    by decide, (), by decide, ⟨hexOf sellerKey, [], hexOf ownerKey, []⟩, by decide, (), by decide,
    (), by decide, ⟨hexOf sellerKey, [], [], []⟩, by decide, (), by decide, orderAddress,
    by decide, ⟨sellerWallet, [funds 0xf0 sellerWallet [⟨lovelaceUnit, 50000000⟩]],
      funds 0xf1 sellerWallet [⟨lovelaceUnit, 5000000⟩]⟩, by decide, rfl⟩, ?_⟩
  simp only [hnames, List.mem_singleton]
  rfl

set_option maxRecDepth 100000 in
theorem responds : ∃ draft summary,
    respondCreateOrder mesh scripts opts now creation = .ok (draft, summary) ∧
      orderOutput sale 12000000 ∈ draft.outputs.map reading.output := by
  obtain ⟨draft, hdraft, hmem⟩ := exists_created
  have hok : (respondCreateOrder mesh scripts opts now creation).isOk := by decide
  cases hresponse : respondCreateOrder mesh scripts opts now creation with
  | error e =>
      rw [hresponse] at hok
      cases hok
  | ok response =>
      refine ⟨response.1, response.2, rfl, List.mem_map.mpr ⟨_, ?_, reading_created⟩⟩
      simp only [respondCreateOrder, bind, bind_eq_ok, hdraft, Except.ok.injEq] at hresponse
      obtain ⟨_, rfl, _, -, _, -, _, -, _, -, hreturn⟩ := hresponse
      obtain rfl := Except.ok.inj hreturn
      exact hmem

end SampleForm

open SampleForm SampleLive in
/-- A blank before the five and a zero behind the ten are not shown again.  After four of
the ten ADA have been taken, the page shows six for three tokens. -/
theorem typed_order_shown_sample :
    (∃ pass book row,
      doSync SampleCreation.mesh SampleChain.opts (SampleChain.exact chain) .empty = .ok pass ∧
      orderbook pass.repo (.finite SampleBatch.now) pair = .ok book ∧
      row ∈ rows book SampleBatch.now ∧ fromRawAmount row.offeredAmount 6 = "10".toList ∧
        fromRawAmount row.requestedAmount 0 = "5".toList) ∧
    ∃ pass book row,
      doSync SampleCreation.mesh SampleChain.opts (SampleChain.exact chainAfter) repo = .ok pass ∧
      orderbook pass.repo (.finite SampleBatch.now) pair = .ok book ∧
      row ∈ rows book SampleBatch.now ∧ row.offeredAmount = 6000000 ∧ row.requestedAmount = 3 := by
  obtain ⟨draft, summary, hbuild, hcreated⟩ := responds
  have hnative : Native adaAsset ∧ Native Sample.token := ⟨.inl rfl, .inr (by decide)⟩
  have hdates : Dates noDates := by
    intro text t ht
    cases ht
  have hshown : ∀ (submitted : List (Bytes × Transaction)) (utxo : Utxo) (ref : OutRef)
      (c : ChainState) (repo : OrdersRepo) (observed : List (ChainProvider × ChainState)),
      Run (Step Sample.deployment) Sample.created submitted utxo →
      (submitted.foldl (follow Sample.deployment.orderScriptHash)
        ⟨some ⟨(Sample.ref 1 0).transactionId, (0 : ℕ)⟩, []⟩).tip = some (reference ref) →
      Run (Maintains SampleCreation.mesh SampleChain.opts chainHistory) .empty observed repo →
      Mirrors SampleCreation.mesh SampleCreation.reading SampleChain.text c utxo ref →
      c ∈ chainHistory.chains → Backend.Confirmed SampleChain.opts c ref →
      ∃ pass book row,
        doSync SampleCreation.mesh SampleChain.opts (SampleChain.exact c) repo = .ok pass ∧
        orderbook pass.repo (.finite SampleBatch.now) pair = .ok book ∧
        row ∈ rows book SampleBatch.now ∧
        ShowsTyped form value (submitted.foldl (follow Sample.deployment.orderScriptHash)
          ⟨some ⟨(Sample.ref 1 0).transactionId, (0 : ℕ)⟩, []⟩).fills row := by
    intro submitted utxo ref c repo observed hrun htip hmaintained hmirrors hc hconfirmed
    obtain ⟨pass, hsync⟩ : ∃ pass, doSync SampleCreation.mesh SampleChain.opts
        (SampleChain.exact c) repo = .ok pass := ChainState.provider_completes _
    obtain ⟨book, hbook⟩ := exists_book pass.repo (.finite SampleBatch.now)
    obtain ⟨row, -, htyped, hside⟩ := typed_order_shown submits (by decide) hdates hnative.1
      hnative.2 rfl rfl SampleCreation.documented SampleCreation.readsAddresses ⟨rfl, rfl⟩
      Sample.sale_injOn (by decide) sends hbuild Sample.step_creation (by decide) rfl hcreated
      hrun rfl htip hmaintained hmirrors (observes hc) ChainState.provider_faithful
      ChainState.provider_exact.2 hsync (.inr hconfirmed) hbook
    have hlisted : isOrderExpired row (.finite SampleBatch.now) = false ∧
        notExpired SampleBatch.now row = true := by
      rw [isOrderExpired, notExpired, htyped.expiration]
      exact ⟨rfl, rfl⟩
    exact ⟨pass, book, row, hsync, hbook, hside hlisted.1 hlisted.2, htyped⟩
  constructor
  · obtain ⟨pass, book, row, hsync, hbook, hrow, htyped⟩ := hshown [] _ saleRef chain .empty []
      (.nil _) rfl (.nil _) mirrors (.inl rfl) ⟨101, by decide, by decide⟩
    exact ⟨pass, book, row, hsync, hbook, hrow, htyped.untouched rfl⟩
  · obtain ⟨pass, book, row, hsync, hbook, hrow, htyped⟩ := hshown _ _ restRef chainAfter repo _
      (.single Sample.step_salePart) tip_after maintained mirrors_after (.inr rfl)
      ⟨51, by decide, by decide⟩
    refine ⟨pass, book, row, hsync, hbook, hrow, ?_, ?_⟩
    · have hvalue := htyped.offeredAmount
      have hleft : decimalValue (trim form.sellAmount) * 10 ^ form.sellDecimals -
          totalTaken [⟨4000000, 2⟩] = 6000000 := by decide +kernel
      exact_mod_cast hvalue.trans hleft
    · have hvalue := htyped.requestedAmount
      have hleft : decimalValue (trim form.buyAmount) * 10 ^ form.buyDecimals -
          totalRequired [⟨4000000, 2⟩] = 3 := by decide +kernel
      exact_mod_cast hvalue.trans hleft

end BeaconDex.Frontend
