import Vwifi.Replies

/-!
# Commands from the command line to the server

A command is an order with numbers and a name. However its word is capitalised and
wherever the options stand, the server that is named carries the command out and answers
it. `show` is two orders, one after the other.
-/

namespace Vwifi

set_option autoImplicit false

open LittleEndian Numeral Options Segmented

namespace Ctrl

inductive Command where
  | askList
  | changeCoordinate (cid x y z : Integer)
  | setName (cid : Integer) (name : CString)
  | changePacketLoss (yes : Bool)
  | askShow
  | askStatus
  | distanceBetweenCid (cid1 cid2 : Integer)
  | setScale (value : Decimal)
  | closeAllClient

/-- A CID of a guest that `int` has room for. -/
def IsGuest (n : Integer) : Prop := 3 ≤ n.value ∧ FitsInt n.value

def guestOf (n : Integer) : TCID := UInt32.ofNat n.value.toNat

def componentOf (n : Integer) : TValue := Int32.ofInt n.value

namespace Command

def word : Command → String
  | askList => "ls"
  | changeCoordinate .. => "set"
  | setName .. => "setname"
  | changePacketLoss _ => "loss"
  | askShow => "show"
  | askStatus => "status"
  | distanceBetweenCid .. => "distance"
  | setScale _ => "scale"
  | closeAllClient => "close"

def parameters : Command → List (List UInt8)
  | changeCoordinate cid x y z => [cid.text, x.text, y.text, z.text]
  | setName cid name => [cid.text, name.bytes]
  | changePacketLoss yes => [text (if yes then "yes" else "no")]
  | distanceBetweenCid cid1 cid2 => [cid1.text, cid2.text]
  | setScale value => [value.text]
  | _ => []

/-- The order is written in any case. Behind one without parameters may stand what will. -/
def Spelt (c : Command) (words : List CString) : Prop :=
  ∃ order args, words = order :: args ∧ order.isAnyCase c.word = true ∧
    (c.parameters = [] ∨ args.map CString.bytes = c.parameters)

def Valid (round : Rat → TScale) : Command → Prop
  | changeCoordinate cid x y z =>
    IsGuest cid ∧ FitsInt x.value ∧ FitsInt y.value ∧ FitsInt z.value
  | setName cid _ => IsGuest cid
  | distanceBetweenCid cid1 cid2 => IsGuest cid1 ∧ IsGuest cid2
  | setScale value => notPositive (round value.value) = false
  | _ => True

/-- What the server is asked first. -/
def request (round : Rat → TScale) : Command → Request
  | askList => .question .torderList
  | changeCoordinate cid x y z =>
    .changeCoordinate (guestOf cid) ⟨componentOf x, componentOf y, componentOf z⟩
  | setName cid name => .setName (guestOf cid) name
  | changePacketLoss yes => .packetLoss (if yes then 1 else 0)
  | askShow => .question .torderShow
  | askStatus => .question .torderStatus
  | distanceBetweenCid cid1 cid2 => .distanceBetweenCid (guestOf cid1) (guestOf cid2)
  | setScale value => .setScale (round value.value)
  | closeAllClient => .closeAllClient

/-- What it is asked over a second connection. -/
def second : Command → Option Request
  | askShow => some (.question .torderList)
  | _ => none

end Command

/-- The server carries out and answers `first`. When this answer has arrived whole,
`second` follows over a connection of its own, and is carried out and answered too. -/
structure Errand.Does (errand : Errand) (first : Request) (second : Option Request) : Prop where
  obeyed : Obeyed errand.fields first
  ends : second = none → ∀ answer, errand.next answer = none
  goesOn : ∀ request, second = some request →
    ∀ (medium : Medium) (ports : List TPort) (h : Held) (answer : List (List UInt8)),
      ArriveWhole (first.answer medium ports h) answer →
        ∃ fields, errand.next answer = some fields ∧ Obeyed fields request

theorem Errand.only_does {fields : Fields} {request : Request} (h : Obeyed fields request) :
    (Errand.only fields).Does request none :=
  ⟨h, fun _ _ => rfl, fun _ hsecond => nomatch hsecond⟩

theorem showErrand_does (stack : ReplyStack) :
    (showErrand stack).Does (.question .torderShow) (some (.question .torderList)) := by
  refine ⟨carries_show.obeyed, (fun h => nomatch h), ?_⟩
  intro request hsecond medium ports h answer hanswer
  obtain rfl := Option.some.inj hsecond
  have hshown := askShow_fields stack hanswer
  refine ⟨[orderField .torderList], ?_, carries_list.obeyed⟩
  rw [showErrand]
  dsimp only
  rw [hshown]
  rfl

/-! ## Texts -/

section Texts

variable {arg : CString} {s : String}

theorem is_of_is (h : arg.is s = true) (t : String) : arg.is t = decide (text s = text t) := by
  have hs : arg.bytes = text s := of_decide_eq_true h
  rw [CString.is, hs]

theorem isAnyCase_of_isAnyCase (h : arg.isAnyCase s = true) (t : String) :
    arg.isAnyCase t = decide ((text s).map tolower = (text t).map tolower) := by
  have hs : arg.bytes.map tolower = (text s).map tolower := of_decide_eq_true h
  rw [CString.isAnyCase, hs]

end Texts

/-! ## Numbers -/

section Numbers

variable {arg : CString} {n : Integer}

theorem isInt_text (h : n.text = arg.bytes) : isInt arg = true :=
  (isInt_iff_or arg).mpr (Or.inl ⟨n, h⟩)

theorem isPositiveInt_text (h : n.text = arg.bytes) (hsign : n.sign ≠ some .minus) :
    isPositiveInt arg = true := by
  refine (isPositiveInt_iff arg).mpr ⟨isInt_text h, ?_⟩
  rw [← h, Integer.text]
  intro hhead
  cases hs : n.sign with
  | none =>
    rw [hs] at hhead
    have hminus := digitsText_head n.digits '-'.toUInt8 hhead
    cases hminus
  | some sign =>
    rw [hs] at hhead
    cases sign with
    | plus => cases hhead
    | minus => exact hsign hs

theorem sign_of_pos (h : 0 < n.value) : n.sign ≠ some .minus := by
  intro hs
  rw [Integer.value, hs, signed] at h
  omega

theorem atoi_text (h : n.text = arg.bytes) (hfits : FitsInt n.value) :
    atoi arg = Int32.ofInt n.value := by
  rw [atoi, strtol_text n h hfits]

theorem stoi_text (h : n.text = arg.bytes) (hfits : FitsInt n.value) : stoi arg = .ok n.value := by
  rw [stoi, strtol_text n h hfits]
  exact if_pos hfits

theorem toUInt32_ofInt {v : Int} (hpos : 0 ≤ v) :
    (Int32.ofInt v).toUInt32 = UInt32.ofNat v.toNat := by
  obtain ⟨m, rfl⟩ := Int.eq_ofNat_of_zero_le hpos
  rw [Int32.ofInt_eq_ofNat]
  rfl

theorem guestOf_ge (hguest : IsGuest n) : ¬ guestOf n < tcidGuestMin := by
  obtain ⟨hmin, _, hmax⟩ := hguest
  have hint : Int32.maxValue.toInt = 2147483647 := rfl
  have hthree : tcidGuestMin.toNat = 3 := rfl
  have hsame : (guestOf n).toNat = n.value.toNat := UInt32.toNat_ofNat_of_lt' (by
    have hsize : UInt32.size = 4294967296 := rfl
    omega)
  rw [UInt32.lt_iff_toNat_lt, hsame, hthree]
  omega

theorem guestCid_text (h : n.text = arg.bytes) (hguest : IsGuest n) (order integer guest : String) :
    guestCid order integer guest arg = .ok (guestOf n) := by
  have hpos : 0 < n.value := lt_of_lt_of_le (by decide) hguest.1
  have hpositive := isPositiveInt_text h (sign_of_pos hpos)
  have hcid : (atoi arg).toUInt32 = guestOf n := by
    rw [atoi_text h hguest.2, toUInt32_ofInt (Int.le_of_lt hpos)]
    rfl
  rw [guestCid, hpositive, if_neg (by decide)]
  dsimp only
  rw [hcid, if_neg (guestOf_ge hguest)]

end Numbers

/-! ## Words -/

section Words

variable {round : Rat → TScale} {stack : ReplyStack} {c : Command} {order : CString}
  {args : List CString}

/-- The function that is called for a command. -/
def called (round : Rat → TScale) (stack : ReplyStack) (args : List CString) :
    Command → Except Refusal Errand
  | .askList => .ok (.only [orderField .torderList])
  | .changeCoordinate .. => (changeCoordinate args).map .only
  | .setName .. => (setName args).map .only
  | .changePacketLoss _ => (changePacketLoss args).map .only
  | .askShow => .ok (showErrand stack)
  | .askStatus => .ok (.only [orderField .torderStatus])
  | .distanceBetweenCid .. => (distanceBetweenCid args).map .only
  | .setScale _ => (setScale round args).map .only
  | .closeAllClient => .ok (.only [orderField .torderCloseAllClient])

/-- The words of the orders. -/
def orderWords : List String :=
  ["ls", "set", "setname", "loss", "show", "status", "distance", "scale", "close"]

theorem isAnyCase_word (h : order.isAnyCase c.word = true) :
    ∀ t ∈ orderWords, order.isAnyCase t = decide (c.word = t) := by
  have hdistinct : ∀ s ∈ orderWords, ∀ t ∈ orderWords,
      decide ((text s).map tolower = (text t).map tolower) = decide (s = t) := by
    decide +kernel
  have hword : c.word ∈ orderWords := by
    cases c <;> simp [Command.word, orderWords]
  intro t ht
  rw [isAnyCase_of_isAnyCase h, hdistinct c.word hword t ht]

theorem dispatch_word (h : order.isAnyCase c.word = true) :
    dispatch round stack order args = some (called round stack args c) := by
  have hany := isAnyCase_word h
  simp only [orderWords, List.forall_mem_cons, List.not_mem_nil, false_imp_iff, implies_true,
    and_true] at hany
  obtain ⟨hls, hset, hsetname, hloss, hshow, hstatus, hdistance, hscale, hclose⟩ := hany
  rw [dispatch, hls, hset, hsetname, hloss, hshow, hstatus, hdistance, hscale, hclose]
  cases c <;> simp [Command.word, called]

end Words

/-! ## The functions of the orders -/

section Functions

variable {round : Rat → TScale} {args : List CString}

theorem changeCoordinate_numbers {cid x y z : Integer} (hguest : IsGuest cid)
    (hx : FitsInt x.value) (hy : FitsInt y.value) (hz : FitsInt z.value)
    (h : args.map CString.bytes = [cid.text, x.text, y.text, z.text]) :
    changeCoordinate args = .ok
      (coordinateFields (guestOf cid) ⟨componentOf x, componentOf y, componentOf z⟩) := by
  obtain ⟨arg, args, rfl, hcid, h⟩ := List.map_eq_cons_iff.mp h
  obtain ⟨argx, args, rfl, hargx, h⟩ := List.map_eq_cons_iff.mp h
  obtain ⟨argy, args, rfl, hargy, h⟩ := List.map_eq_cons_iff.mp h
  obtain ⟨argz, args, rfl, hargz, h⟩ := List.map_eq_cons_iff.mp h
  obtain rfl := List.map_eq_nil_iff.mp h
  rw [changeCoordinate, guestCid_text hcid.symm hguest]
  dsimp only
  rw [isInt_text hargx.symm, isInt_text hargy.symm, isInt_text hargz.symm,
    atoi_text hargx.symm hx, atoi_text hargy.symm hy, atoi_text hargz.symm hz]
  rfl

/-- A name of any length: the program shortens it as the server would. -/
theorem setName_obeyed {cid : Integer} (hguest : IsGuest cid) {name : CString}
    (h : args.map CString.bytes = [cid.text, name.bytes]) :
    ∃ fields, setName args = .ok fields ∧ Obeyed fields (.setName (guestOf cid) name) := by
  obtain ⟨arg, args, rfl, hcid, h⟩ := List.map_eq_cons_iff.mp h
  obtain ⟨argname, args, rfl, hname, h⟩ := List.map_eq_cons_iff.mp h
  obtain rfl := List.map_eq_nil_iff.mp h
  obtain rfl := CString.ext_bytes hname
  rw [setName, guestCid_text hcid.symm hguest]
  dsimp only
  refine ⟨_, rfl, ?_⟩
  split
  · have hlen : (argname.resize maxSizeName).bytes.length ≤ maxSizeName := List.length_take_le _ _
    have hobeyed := (carries_name (guestOf cid) hlen).obeyed
    have hsame : ∀ held, (Request.setName (guestOf cid) (argname.resize maxSizeName)).effect held =
        (Request.setName (guestOf cid) argname).effect held := by
      intro held
      rw [Request.effect, Request.effect, Held.storeName_resize]
    intro segments hwhole medium stack d room s held hs hctrl
    obtain ⟨s', heq, hholds, htells⟩ := hobeyed segments hwhole medium stack d room s held hs hctrl
    rw [hsame] at hholds
    exact ⟨s', heq, hholds, htells⟩
  · exact (carries_name (guestOf cid) (by omega)).obeyed

theorem changePacketLoss_yes {yes : Bool}
    (h : args.map CString.bytes = [text (if yes then "yes" else "no")]) :
    changePacketLoss args = .ok (lossFields (if yes then 1 else 0)) := by
  obtain ⟨arg, args, rfl, hvalue, h⟩ := List.map_eq_cons_iff.mp h
  obtain rfl := List.map_eq_nil_iff.mp h
  cases yes with
  | true =>
    have hyes : arg.is "yes" = true := decide_eq_true hvalue
    rw [changePacketLoss, hyes]
    rfl
  | false =>
    have hno : arg.is "no" = true := decide_eq_true hvalue
    have hyes : arg.is "yes" = false := by
      rw [is_of_is hno]
      decide +kernel
    rw [changePacketLoss, hyes, hno]
    rfl

theorem distanceBetweenCid_numbers {cid1 cid2 : Integer} (hguest1 : IsGuest cid1)
    (hguest2 : IsGuest cid2) (h : args.map CString.bytes = [cid1.text, cid2.text]) :
    distanceBetweenCid args = .ok (distanceFields (guestOf cid1) (guestOf cid2)) := by
  obtain ⟨arg1, args, rfl, hcid1, h⟩ := List.map_eq_cons_iff.mp h
  obtain ⟨arg2, args, rfl, hcid2, h⟩ := List.map_eq_cons_iff.mp h
  obtain rfl := List.map_eq_nil_iff.mp h
  rw [distanceBetweenCid, guestCid_text hcid1.symm hguest1]
  dsimp only
  rw [guestCid_text hcid2.symm hguest2]

theorem setScale_number {v : Decimal} (hpositive : notPositive (round v.value) = false)
    (h : args.map CString.bytes = [v.text]) :
    setScale round args = .ok (scaleFields (round v.value)) := by
  obtain ⟨arg, args, rfl, hvalue, h⟩ := List.map_eq_cons_iff.mp h
  obtain rfl := List.map_eq_nil_iff.mp h
  have hdecimal : isIntOrFloat arg = true := (isIntOrFloat_iff arg).mpr ⟨v, hvalue.symm⟩
  have hatof : atof round arg = round v.value := by
    rw [atof, strtod_text v hvalue.symm]
    rfl
  rw [setScale, hdecimal, hatof, hpositive]
  rfl

/-- The function of a command sends the command. -/
theorem called_does {c : Command} {stack : ReplyStack} (hvalid : c.Valid round)
    (hargs : c.parameters = [] ∨ args.map CString.bytes = c.parameters) :
    ∃ errand, called round stack args c = .ok errand ∧
      errand.Does (c.request round) c.second := by
  have hparameters := fun hne : c.parameters ≠ [] => hargs.resolve_left hne
  have honly : ∀ {r : Except Refusal Fields} {request},
      (∃ fields, r = .ok fields ∧ Obeyed fields request) →
        ∃ errand, r.map Errand.only = .ok errand ∧ errand.Does request none := by
    intro r request h
    obtain ⟨fields, rfl, hobeyed⟩ := h
    exact ⟨_, rfl, Errand.only_does hobeyed⟩
  cases c with
  | askList => exact ⟨_, rfl, Errand.only_does carries_list.obeyed⟩
  | askShow => exact ⟨_, rfl, showErrand_does stack⟩
  | askStatus => exact ⟨_, rfl, Errand.only_does carries_status.obeyed⟩
  | closeAllClient => exact ⟨_, rfl, Errand.only_does carries_close.obeyed⟩
  | changeCoordinate cid x y z =>
    obtain ⟨hguest, hx, hy, hz⟩ := hvalid
    exact honly ⟨_, changeCoordinate_numbers hguest hx hy hz (hparameters (List.cons_ne_nil _ _)),
      (carries_coordinate _ _).obeyed⟩
  | setName cid name =>
    exact honly (setName_obeyed hvalid (hparameters (List.cons_ne_nil _ _)))
  | changePacketLoss yes =>
    apply honly
    refine ⟨_, changePacketLoss_yes (hparameters (List.cons_ne_nil _ _)), ?_⟩
    cases yes
    · exact (carries_loss (by decide)).obeyed
    · exact (carries_loss (by decide)).obeyed
  | distanceBetweenCid cid1 cid2 =>
    exact honly ⟨_, distanceBetweenCid_numbers hvalid.1 hvalid.2
      (hparameters (List.cons_ne_nil _ _)), (carries_distance _ _).obeyed⟩
  | setScale v =>
    exact honly ⟨_, setScale_number hvalid (hparameters (List.cons_ne_nil _ _)),
      (carries_scale _).obeyed⟩

end Functions

/-! ## Options among the words -/

inductive Argument where
  | word (w : CString)
  | port (flag value : CString) (n : Integer)
  | ip (flag value : CString)

namespace Argument

/-- The texts that are no words, or not before every argument. -/
def optionTexts : List String :=
  ["-v", "--version", "-h", "--help", "-p", "--port", "-i", "--ip"]

/-- A port may be as large as an `int`. -/
def Valid : Argument → Prop
  | word w => ∀ s ∈ optionTexts, w.is s = false
  | port flag value n =>
    (flag.is "-p" = true ∨ flag.is "--port" = true) ∧ n.text = value.bytes ∧
      n.sign ≠ some .minus ∧ FitsInt n.value
  | ip flag _ => flag.is "-i" = true ∨ flag.is "--ip" = true

instance : (arg : Argument) → Decidable arg.Valid
  | word w => inferInstanceAs (Decidable (∀ s ∈ optionTexts, w.is s = false))
  | port flag value n =>
    inferInstanceAs (Decidable ((flag.is "-p" = true ∨ flag.is "--port" = true) ∧
      n.text = value.bytes ∧ n.sign ≠ some .minus ∧ FitsInt n.value))
  | ip flag _ => inferInstanceAs (Decidable (flag.is "-i" = true ∨ flag.is "--ip" = true))

def item : Argument → Item CString Arguments
  | word w => ⟨w, none, fun a => { a with paramCmd := a.paramCmd ++ [w] }⟩
  | port flag value n => ⟨flag, some value, fun a => { a with port := UInt16.ofInt n.value }⟩
  | ip flag value => ⟨flag, some value, fun a => { a with ip := value }⟩

def word? : Argument → Option CString
  | word w => some w
  | _ => none

theorem forall_optionTexts {p : String → Prop} :
    (∀ t ∈ optionTexts, p t) ↔ p "-v" ∧ p "--version" ∧ p "-h" ∧ p "--help" ∧ p "-p" ∧
      p "--port" ∧ p "-i" ∧ p "--ip" := by
  simp [optionTexts]

/-- A flag is one of the texts and no other. -/
theorem is_option {flag : CString} {s : String} (hs : s ∈ optionTexts) (h : flag.is s = true) :
    ∀ t ∈ optionTexts, flag.is t = decide (s = t) := by
  have hdistinct : ∀ s ∈ optionTexts, ∀ t ∈ optionTexts,
      decide (text s = text t) = decide (s = t) := by
    decide +kernel
  intro t ht
  rw [is_of_is h, hdistinct s hs t ht]

theorem takeArgument_word {w : CString} (h : ∀ s ∈ optionTexts, w.is s = false) (a : Arguments)
    (next : Option CString) :
    takeArgument a w next = .alone { a with paramCmd := a.paramCmd ++ [w] } := by
  obtain ⟨hv, hversion, hh, hhelp, hp, hport, hi, hip⟩ := forall_optionTexts.mp h
  rw [takeArgument, hv, hversion, hh, hhelp, hp, hport, hi, hip]
  rfl

theorem takeArgument_port {flag value : CString} {n : Integer}
    (hflag : flag.is "-p" = true ∨ flag.is "--port" = true) (hvalue : n.text = value.bytes)
    (hsign : n.sign ≠ some .minus) (hfits : FitsInt n.value) (a : Arguments) :
    takeArgument a flag (some value) = .withNext { a with port := UInt16.ofInt n.value } := by
  have hfilter : (some value).filter isPositiveInt = some value := by
    rw [Option.filter_some, if_pos (isPositiveInt_text hvalue hsign)]
  have hstoi := stoi_text hvalue hfits
  rcases hflag with h | h
  · obtain ⟨hv, hversion, hh, hhelp, hp, hport, _, _⟩ :=
      forall_optionTexts.mp (is_option (by simp [optionTexts]) h)
    rw [takeArgument, hv, hversion, hh, hhelp, hp, hport]
    simp [hfilter, hstoi]
  · obtain ⟨hv, hversion, hh, hhelp, hp, hport, _, _⟩ :=
      forall_optionTexts.mp (is_option (by simp [optionTexts]) h)
    rw [takeArgument, hv, hversion, hh, hhelp, hp, hport]
    simp [hfilter, hstoi]

theorem takeArgument_ip {flag : CString} (hflag : flag.is "-i" = true ∨ flag.is "--ip" = true)
    (value : CString) (a : Arguments) :
    takeArgument a flag (some value) = .withNext { a with ip := value } := by
  rcases hflag with h | h
  · obtain ⟨hv, hversion, hh, hhelp, hp, hport, hi, hip⟩ :=
      forall_optionTexts.mp (is_option (by simp [optionTexts]) h)
    rw [takeArgument, hv, hversion, hh, hhelp, hp, hport, hi, hip]
    rfl
  · obtain ⟨hv, hversion, hh, hhelp, hp, hport, hi, hip⟩ :=
      forall_optionTexts.mp (is_option (by simp [optionTexts]) h)
    rw [takeArgument, hv, hversion, hh, hhelp, hp, hport, hi, hip]
    rfl

theorem item_known {arg : Argument} (h : arg.Valid) : arg.item.Known takeArgument := by
  cases arg with
  | word w => exact takeArgument_word h
  | port flag value n =>
    obtain ⟨hflag, hvalue, hsign, hfits⟩ := h
    exact takeArgument_port hflag hvalue hsign hfits
  | ip flag value => exact takeArgument_ip h value

end Argument

/-- What the arguments leave in the variables of the program. -/
def variablesOf (args : List Argument) : Arguments :=
  args.foldl (fun a arg => arg.item.apply a) Arguments.default

theorem walk_arguments {args : List Argument} (h : ∀ arg ∈ args, arg.Valid) :
    walk takeArgument Arguments.default (args.flatMap fun arg => arg.item.words) =
      .ok (variablesOf args) := by
  have hitems := @walk_items _ _ _ takeArgument (args.map Argument.item) (by
    intro i hi
    obtain ⟨arg, harg, rfl⟩ := List.mem_map.mp hi
    exact Argument.item_known (h arg harg)) Arguments.default
  rw [List.flatMap_map, List.foldl_map] at hitems
  exact hitems

theorem foldl_paramCmd (args : List Argument) (a : Arguments) :
    (args.foldl (fun a arg => arg.item.apply a) a).paramCmd =
      a.paramCmd ++ args.filterMap Argument.word? := by
  induction args generalizing a with
  | nil => exact (List.append_nil _).symm
  | cons arg args ih =>
    rw [List.foldl_cons, ih]
    cases arg with
    | word w => exact List.append_assoc a.paramCmd [w] _
    | port flag value n => rfl
    | ip flag value => rfl

theorem variablesOf_paramCmd (args : List Argument) :
    (variablesOf args).paramCmd = args.filterMap Argument.word? := foldl_paramCmd args _

/-- A command among valid arguments: the server they name carries it out and answers it. -/
theorem commands_obeyed {round : Rat → TScale} (stack : ReplyStack) {c : Command}
    (hvalid : c.Valid round) {args : List Argument} (hargs : ∀ arg ∈ args, arg.Valid)
    (hspelt : c.Spelt (args.filterMap Argument.word?)) :
    ∃ errand, main round stack (args.flatMap fun arg => arg.item.words) =
        .sends (variablesOf args).ip (variablesOf args).port errand ∧
      errand.Does (c.request round) c.second := by
  obtain ⟨order, parameters, hwords, hword, hparameters⟩ := hspelt
  obtain ⟨errand, hcalled, hdoes⟩ := @called_does round parameters c stack hvalid hparameters
  refine ⟨errand, ?_, hdoes⟩
  rw [main, walk_arguments hargs]
  dsimp only
  rw [variablesOf_paramCmd, hwords]
  dsimp only
  rw [dispatch_word hword, hcalled]

/-- `SET 3 -p 9000 +1 2 -7` -/
theorem commands_obeyed_set :
    ∃ errand, main (fun _ => 0) (fun _ _ => 0) [⟨text "SET", by decide⟩, ⟨text "3", by decide⟩,
          ⟨text "-p", by decide⟩, ⟨text "9000", by decide⟩, ⟨text "+1", by decide⟩,
          ⟨text "2", by decide⟩, ⟨text "-7", by decide⟩] =
        .sends defaultAddressIP 9000 errand ∧
      errand.Does (.changeCoordinate 3 ⟨1, 2, -7⟩) none :=
  @commands_obeyed (fun _ => 0) (fun _ _ => 0)
    (.changeCoordinate ⟨none, [3], by decide⟩ ⟨some .plus, [1], by decide⟩ ⟨none, [2], by decide⟩
      ⟨some .minus, [7], by decide⟩)
    ⟨⟨by decide, by decide⟩, by decide, by decide, by decide⟩
    [.word ⟨text "SET", by decide⟩, .word ⟨text "3", by decide⟩,
      .port ⟨text "-p", by decide⟩ ⟨text "9000", by decide⟩ ⟨none, [9, 0, 0, 0], by decide⟩,
      .word ⟨text "+1", by decide⟩, .word ⟨text "2", by decide⟩, .word ⟨text "-7", by decide⟩]
    (by decide +kernel)
    ⟨⟨text "SET", by decide⟩, [⟨text "3", by decide⟩, ⟨text "+1", by decide⟩,
      ⟨text "2", by decide⟩, ⟨text "-7", by decide⟩], rfl, by decide +kernel,
      .inr (by decide +kernel)⟩

end Ctrl

end Vwifi
