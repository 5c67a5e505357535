import Nullark.Evm.Bn254
import Nullark.Lib.Groth16
import Nullark.Verifier.ActionRouting

/-! # The generated Groth16 verifiers

The verifiers of the circuits differ in their constants and in the number of signals. Their assembly
writes the points of the equation to memory and calls the precompiled contracts; the arguments stand
one behind the other in the calldata, behind the selector. A call has enough gas.

* `Ready`: the memory between two signals.
* `checkPairing_eq`: what is handed to the pairing.
* `verifyProof_eq_true`: the proofs that are accepted are those that satisfy the equation. -/

namespace Nullark.Verifier.Groth16

open Nullark.Lib.Bytes Nullark.Lib.Memory Nullark.Lib.Groth16 Nullark.Evm.Basic Nullark.Evm.Bn254
open Nullark.Pool.Interface Nullark.Verifier.ActionRouting

/-! ### The constants -/

/-- **The constants of a verifier.** -/
structure VerifyingKeyWords where
  alpha : UInt256 × UInt256
  beta : (UInt256 × UInt256) × (UInt256 × UInt256)
  gamma : (UInt256 × UInt256) × (UInt256 × UInt256)
  delta : (UInt256 × UInt256) × (UInt256 × UInt256)
  ic : UInt256 × UInt256
  ics : List (UInt256 × UInt256)

/-- `Groth16DepositVerifier`. -/
def depositKey : VerifyingKeyWords where
  alpha := (15338199456724848378444385548909129709405272595424296358282402745695186491691,
      10709474856717473587885417634126801182216729695717951681956363795809320029121)
  beta := ((18393849994734458044983512526189208777493594902819022906326659695887074261764,
      14080307758281654550988268276038369157849821277516006235863873485545931445506),
      (8936172737604913314618109591753402574914857786359639997084243024150126509239,
      5734654860869051628261999203567766046659775770693630576334524019904524335500))
  gamma := ((11559732032986387107991004021392285783925812861821192530917403151452391805634,
      10857046999023057135944570762232829481370756359578518086990519993285655852781),
      (4082367875863433681332203403145435568316851327593401208105741076214120093531,
      8495653923123431417604973247489272438418190587263600148770280649306958101930))
  delta := ((14919980245142059186329765277141021536860532314045626930449270204792964447802,
      3944910384600583741445378689231641924825281285876806241660577924572372768832),
      (2133260877764023101135788541139425100272421626311224278371207313516821067729,
      10352301561427984843115217271153920993015509315305560018331368946117029453589))
  ic := (18938519645378904586279707096137896128890276088841641470636820061366025443475,
      5921030856302717355740639385047906818604162653525807772536357234185758686167)
  ics := [
    (17554965645813189450884916368990011449612176184455072653597128442765912540602,
      9221406122770206223484689799314353325038261455033458418153060440994102141344),
    (6657709302783192380977392195860481961934781497058992264055029354293263888713,
      3291441476753126981915810407984672416240156896795564917458655455646385238657),
    (7902475350722468405633590212381227859915063083921574545702374078812864653293,
      6257538219412310664581262141587541578881661270051512987050955782277807611871),
    (4340057363623008622313753463261441112140357399068237313076514507969106891996,
      3934403013408525074628025734258484705532753101385675021538364636534989687827),
    (8853539050470741907546308875753894322244646376845103427485561256648667310224,
      14245841724997088426953432954431903889617520328804000829261395601387827496318),
    (18092676806887626758759645038081042625299423587130608423790024443612068898386,
      19504562515498011076508299352684291907886216301809506037983829448804440286814)]

/-- `Groth16PrivateTransferVerifier`. -/
def privateTransferKey : VerifyingKeyWords where
  alpha := (15338199456724848378444385548909129709405272595424296358282402745695186491691,
      10709474856717473587885417634126801182216729695717951681956363795809320029121)
  beta := ((18393849994734458044983512526189208777493594902819022906326659695887074261764,
      14080307758281654550988268276038369157849821277516006235863873485545931445506),
      (8936172737604913314618109591753402574914857786359639997084243024150126509239,
      5734654860869051628261999203567766046659775770693630576334524019904524335500))
  gamma := ((11559732032986387107991004021392285783925812861821192530917403151452391805634,
      10857046999023057135944570762232829481370756359578518086990519993285655852781),
      (4082367875863433681332203403145435568316851327593401208105741076214120093531,
      8495653923123431417604973247489272438418190587263600148770280649306958101930))
  delta := ((19053526124564076598207754160893659474591296121076298922803956778312449419721,
      4897969476415883871197106856815396566829243058402106287860039144401174923042),
      (3152069883957653887098330651289533723593774696550808551868419782312688249976,
      9751608229123938770273180377618117408644684456850649048739416746353501491777))
  ic := (14569120969225422115636622886944111348089791172238693135614787713529676369578,
      13405831240662701709693452051621558976808620751773877711989048267958480218755)
  ics := [
    (18119435835486872450775279937410426781879836558321135031394057383252982267559,
      8533262249102080312255515006313591796854546548720810786067179772535013204692),
    (19401421439949015547920472766223979308277481648488225874078314994767356006663,
      5016776157127611251770979739432222486674560422092213982089800171263265394558),
    (18049058402455022231567868714960386778689740999934952128327083003032255552363,
      3972324047837250829340535228850323442149018376376704457182501228845111865575),
    (156448768898493295258153159552243168938906420381573830033767474330667535992,
      15686600880217239017553632688382745978630938537407242350773014473553513257462),
    (271248651102375552394484146159235526703875665193617971138133088802145690287,
      13180735358746296631953500282766758086378222103507607452232850095312089863507),
    (229297758014159054244682224764006991668466021410413337160842514238829219954,
      2844157811999622601937010504762370029097660275457728749408318068745656301933),
    (20614061803287004144797953243282443509780549763609366621887898722004223375955,
      8074637344586562027400553731015777515441508163478741809791515349786723573190),
    (13722986233679478318948522663579131925488070261635048534498575671461257605214,
      10429104686495294659512559206408166030156330679873752305701740816404980572599),
    (1474142445871735515559910742781416574499514096365746198454040413273336335219,
      16096116994306078501459510755951163276789442230264457549732167142676665643568),
    (915086017351441923053608857195470197405996132636813867450178424913444662819,
      4724135572876169881640292075470740160225713380308999264974470935504483448371)]

/-- `Groth16WithdrawVerifier`. -/
def withdrawKey : VerifyingKeyWords where
  alpha := (15338199456724848378444385548909129709405272595424296358282402745695186491691,
      10709474856717473587885417634126801182216729695717951681956363795809320029121)
  beta := ((18393849994734458044983512526189208777493594902819022906326659695887074261764,
      14080307758281654550988268276038369157849821277516006235863873485545931445506),
      (8936172737604913314618109591753402574914857786359639997084243024150126509239,
      5734654860869051628261999203567766046659775770693630576334524019904524335500))
  gamma := ((11559732032986387107991004021392285783925812861821192530917403151452391805634,
      10857046999023057135944570762232829481370756359578518086990519993285655852781),
      (4082367875863433681332203403145435568316851327593401208105741076214120093531,
      8495653923123431417604973247489272438418190587263600148770280649306958101930))
  delta := ((19547466851582235577642576857773046427878156567764701176236038661137676493137,
      3774200717028234699111195521732114464738896129336169713184068268403874645149),
      (16974207141453196352704430729805408569306945800819822164785517185368830148358,
      2560766987762132683846147697130501666282716070012662622539509635244218029142))
  ic := (7793953928904016216056515209236116098137663486566889031890609787184561789563,
      5007102578530739690570742940190197698455347208034544007536528887247097457853)
  ics := [
    (5044647117237136096290510412654560220503336527653705273263283787494935874008,
      14139779492829968255445047299354008501006891427822744813252305079849988582909),
    (13265408109157366141833530005098849623013650077421243648328765315774146520159,
      3403065278308270013004810492759492236954070861506430772652019297387385897783),
    (8326562199398621412328628503924294910833076599726817572059602346062366443699,
      11568228107946598366155900324451152826726796402534531278133012529778505481700),
    (5998149012762197564026140372902700448516474483837406646014533621650238671630,
      1516709380975897975411685548250086587863027387611339433445032510810094293498),
    (8854313040347890339601488250577437237421519363012270657964765529480503437503,
      3102772931882299145903353897643904378840919803548708075151237852641275673215),
    (8727835035084874985986144841277846984733014189257386078449382312514227787866,
      413579113999412208561144040575313917008297603538086137576707831495921953373),
    (9234399699549104757654456950563693465241349545516900866775483063871831370599,
      9218059972883019485760708657548964512725506095043040694654145734073346612058),
    (17906816875907590250192647968264988225417185948074708388526059416333258930030,
      3762376375977532122450903627367968124506891412223715323518060888312355622617),
    (18427203213632300575794937616859028193677631992979060274253883685889513406541,
      1641104871317602655071870925716247446867516067021100117676434866732125642952),
    (7930345226518561947749255530679141670706314154076426688077034027835939305666,
      17918881395051833921722552747721500856303776231711130734599098204468421137946)]

/-- `Groth16PrivateTransferVerifier` of v1.1. -/
def privateTransferKeyV11 : VerifyingKeyWords where
  alpha := (19894238337093105710184905065119188502323496113692738651607604190346141549217,
      7298484472052699725360734307070510648575516919844749612069047647511841744565)
  beta := ((15707224959411985875319505018557247304944465135675747448991613563085966913024,
      19377600051778104169506886432910599324350153067368102647273776453854791009703),
      (15285887592697552749044403843610179398365620520171068199818030659294265516741,
      11031911698394848210154431457033361505055766349871984754918178213032490075929))
  gamma := ((11559732032986387107991004021392285783925812861821192530917403151452391805634,
      10857046999023057135944570762232829481370756359578518086990519993285655852781),
      (4082367875863433681332203403145435568316851327593401208105741076214120093531,
      8495653923123431417604973247489272438418190587263600148770280649306958101930))
  delta := ((21739144018180753233622567559902953550438735054615138714295041515598957890987,
      12615122893861805893337168445473407978378549478066907200610927281301048664989),
      (8661648809984187441498473133961911502090238179136848389754420499347975239524,
      5424063152418987437706761230039104652447843942389348235781791460732122038422))
  ic := (4309503932518732898305053737432193050439369249140247275571223386576937027353,
      3238188791284417766942935326705181524918822173503943518651301404820831796687)
  ics := [
    (535771899715217877160079397225293767889402760979058506383670483365385611477,
      12335076954817176688844980776505252051012043489461703819272082903363636552925),
    (6246809709364909263172127822004045593915009063239474326946142448717853959885,
      17909538802083324321095179075227239920116535911113429920323109168242311975737),
    (18400933895596699544012776887751041176987727269154749728823554357096624884672,
      9312564148919405089713637404013645056206648259415127397546878324667194978733),
    (21040993850448225783492492216695732209957696932929990393225346960323734942772,
      14582494159278408425435114876246383075643633373915324976216477522330594860791),
    (20491443481166068524469017975625057185383394234394020089605311458854453029651,
      3550791172262335880630492420993528959988287678183010873993810072918167159861),
    (19474373552539080626936862189396714117403972262713310228987666529608135250874,
      18261224217844839871700505634329323464647866104846016314635464005641927199881),
    (20113235181186470480709004437894521165399781366821650431222205673408244375275,
      1850601732446752657691056234175677375719326117122754474389817732571196479065),
    (18106802422813093689592967312709500745185520087158671786593417454270988260971,
      17696750544021298070933678331207869278988265515133772395860062084108525636022),
    (12039726315492410290213744176082122979577441512021126342867407635919671832068,
      7455270233323855791522286854537129426278533319919786791523419875959608939839),
    (15141028247367114329078662058795823661730755277103910302991773513749654052635,
      21075807953685385627298555278917774731995329042971278389753675435414237395303),
    (20199445559336601794189379177582697879837748605245430609136062157905913711390,
      18244477071196045195754738267435359963762016170455528024461564921785838997492),
    (5950057695683933931759882458413749690486521835305559294850705327301083669089,
      8909179389232141651175512139659128961163339047433787483705477222628909927072)]

/-- `Groth16WithdrawVerifier` of v1.1. -/
def withdrawKeyV11 : VerifyingKeyWords where
  alpha := (19894238337093105710184905065119188502323496113692738651607604190346141549217,
      7298484472052699725360734307070510648575516919844749612069047647511841744565)
  beta := ((15707224959411985875319505018557247304944465135675747448991613563085966913024,
      19377600051778104169506886432910599324350153067368102647273776453854791009703),
      (15285887592697552749044403843610179398365620520171068199818030659294265516741,
      11031911698394848210154431457033361505055766349871984754918178213032490075929))
  gamma := ((11559732032986387107991004021392285783925812861821192530917403151452391805634,
      10857046999023057135944570762232829481370756359578518086990519993285655852781),
      (4082367875863433681332203403145435568316851327593401208105741076214120093531,
      8495653923123431417604973247489272438418190587263600148770280649306958101930))
  delta := ((6588689534418451089943099412892893456591567151172181483639689381753425966452,
      13381640709949587948572967954912932468754045003597485935201398512233067255553),
      (19833604122472137886511388652707134342642549016809797954463021766720400915500,
      15880225027188522932768531732429039614685462732405846472569122487777574882966))
  ic := (8864733050623935548462953784321106938756596349195048973248994157126715829917,
      10351093797371806246530737849028193045818137539395729449000991996409017118670)
  ics := [
    (8793900862275835971967693299720915069649234026846297686476973229063212725702,
      3912984965922228636671803301145436073423258230966506948114239287343447717074),
    (19603082586421984249451518351054909240796483127064961945011300887373808442174,
      7379189308899627813306753675202768611985311374772273353506449278738871595871),
    (19255245595584984861766650335616453791980421381032993745360432117863869581039,
      13460770847923525280440092077473654730937626298705189515623258143400879684828),
    (13988223711049341791872127272440063928818954066955831747125516692056090250396,
      9443814591777360496816254586288187179590672648511231011596591956199569859302),
    (6381122089853734215206748017136183360321544290843479359814624239166461335650,
      17159520761361384902252934632625043457076015768038441285705937459264127912293),
    (18267607398890862195245557806725268806180364736499109082828130348650357807825,
      10946294536084088826226514968261091406557158621982886457901502145691356148002),
    (20493180116127159694941162421117867663427536430646690562578117995187214874046,
      10664670222887299126688271266177083331713126639285822750217867287394873015744),
    (3797452634221372275899298078863722361983568460986801973448025520468418198667,
      17526423191342994750065936558326707703939018692505137864785203851838113475433),
    (19880283257199382569783470794263230349226254765334676015582588959997211398332,
      14605958441350002239556818994273582585458110626830517534485035733932875053920),
    (8616893975596577021253841111065323162146788334174523284440967959959316791669,
      18796214844998655187317801790718548349946621107385510107067831774588225043366),
    (20798301044019301637102480912206143408813390571884554114680854113194744505022,
      17721151195517649907398225281538281879671043404654414859799620882021676832852),
    (430872558245451965662017405947436802956429296116913081442930349045287073642,
      8872725960681105463818812158194739882616360895746334385003145459925780496926)]


/-! ### The code -/

def pVk : ℕ := 0

def pPairing : ℕ := 128

def pLastMem : ℕ := 896

/-- Where the arguments stand. -/
def argA : ℕ := 0

def argB : ℕ := 64

def argC : ℕ := 192

def argSignals : ℕ := 256

/-- The words of a proof. -/
def pointWords (points : ProofPoints) : List UInt256 :=
  [points.pA.1, points.pA.2, points.pB.1.1, points.pB.1.2, points.pB.2.1, points.pB.2.2,
    points.pC.1, points.pC.2]

/-- The calldata behind the selector. -/
def calldata (points : ProofPoints) (pubSignals : List Bytes32) : ByteMemory :=
  ofBytes (words (pointWords points ++ pubSignals))

/-- `staticcall`, which fails or writes what is returned. -/
def staticcall (contract : Bytes → Option Bytes) (m : ByteMemory)
    (input inputSize output outputSize : ℕ) : Option ByteMemory :=
  (contract (read m input inputSize)).map fun returned => write m output (returned.take outputSize)

/-- **`g1_mulAccC`**: adds a multiple of a point to the one at `pR`. -/
def g1MulAccC (pre : Precompiles) (pR : ℕ) (x y s : UInt256) (m : ByteMemory) :
    Option ByteMemory := do
  let mIn := (mload m 64).toNat
  let m := mstore m mIn x
  let m := mstore m (mIn + 32) y
  let m := mstore m (mIn + 64) s
  let m ← staticcall pre.ecMul m mIn 96 mIn 64
  let m := mstore m (mIn + 64) (mload m pR)
  let m := mstore m (mIn + 96) (mload m (pR + 32))
  staticcall pre.ecAdd m mIn 128 pR 64

/-- The calls of `g1_mulAccC`, one for each signal. -/
def combineSignals (pre : Precompiles) (args : ByteMemory) (pR : ℕ)
    (ics : List (UInt256 × UInt256)) (m : ByteMemory) : Option ByteMemory :=
  ics.zipIdx.foldlM
    (fun m p => g1MulAccC pre pR p.1.1 p.1.2 (mload args (argSignals + 32 * p.2)) m) m

/-- The first two pairs of `checkPairing`: the points of the proof and those of the key. -/
def writeProof (vk : VerifyingKeyWords) (args : ByteMemory) (pair : ℕ) (m : ByteMemory) :
    ByteMemory :=
  -- -A
  let m := mstores m pair [mload args argA, negateY (mload args (argA + 32))]
  let m := mstores m (pair + 64) [mload args argB, mload args (argB + 32), mload args (argB + 64),
    mload args (argB + 96)]
  let m := mstores m (pair + 192) [vk.alpha.1, vk.alpha.2]
  mstores m (pair + 256) [vk.beta.1.1, vk.beta.1.2, vk.beta.2.1, vk.beta.2.2]

/-- The other two: the point of the signals, and what is left of the proof. -/
def writeSignals (vk : VerifyingKeyWords) (args : ByteMemory) (pair point : ℕ) (m : ByteMemory) :
    ByteMemory :=
  let m := mstore m (pair + 384) (mload m point)
  let m := mstore m (pair + 416) (mload m (point + 32))
  let m := mstores m (pair + 448) [vk.gamma.1.1, vk.gamma.1.2, vk.gamma.2.1, vk.gamma.2.2]
  let m := mstores m (pair + 576) [mload args argC, mload args (argC + 32)]
  mstores m (pair + 640) [vk.delta.1.1, vk.delta.1.2, vk.delta.2.1, vk.delta.2.2]

/-- **`checkPairing`**; it is left early when a point cannot be added. -/
def checkPairing (pre : Precompiles) (vk : VerifyingKeyWords) (args : ByteMemory) (pMem : ℕ)
    (m : ByteMemory) : Option UInt256 := do
  let pair := pMem + pPairing
  let point := pMem + pVk
  let m := mstores m point [vk.ic.1, vk.ic.2]
  let m ← combineSignals pre args point vk.ics m
  let m := writeSignals vk args pair point (writeProof vk args pair m)
  return match staticcall pre.ecPairing m pair 768 pair 32 with
    | none => 0
    | some m => 1 &&& mload m pair

/-- **`verifyProof`**. -/
def verifyProof (pre : Precompiles) (vk : VerifyingKeyWords) (points : ProofPoints)
    (pubSignals : List Bytes32) : Bool :=
  let args := calldata points pubSignals
  -- the memory of a new call
  let m := mstore (fun _ => 0) 64 128
  let pMem := (mload m 64).toNat
  let m := mstore m 64 (BitVec.ofNat 256 (pMem + pLastMem))
  if (List.range vk.ics.length).all fun i => isFieldElement (mload args (argSignals + 32 * i)) then
    match checkPairing pre vk args pMem m with
    | none => false
    | some isOk => isOk ≠ 0
  else false

/-! ### The memory -/

section Memory
variable {G₂ T : Type} [AddCommGroup G₂] [AddCommGroup T] {c : Pairing G₂ T}
variable {m : ByteMemory} {args : ByteMemory} {V P : G1} {x y s : UInt256}

/-- **Between two signals** the free memory pointer and what has been combined stand in memory. -/
structure Ready (m : ByteMemory) (V : G1) : Prop where
  pointer : Holds m 64 [1024]
  point : Holds m 128 (encodedWords V)

theorem staticcall_eq {contract : Bytes → Option Bytes} {input inputSize output outputSize : ℕ}
    {ws vs : List UInt256} (hinput : Holds m input ws) (hsize : inputSize = 32 * ws.length)
    (hcontract : contract (words ws) = some (words vs)) (houtput : outputSize = 32 * vs.length) :
    staticcall contract m input inputSize output outputSize = some (write m output (words vs)) := by
  rw [staticcall, hinput.read hsize, hcontract, Option.map_some, houtput, ← length_words,
    List.take_length]

/-- The multiple of the point of a signal. -/
theorem ecMul_ready (h : Ready m V) (hP : decodeG1 x y = some P) :
    ∃ m', staticcall (precompiles c).ecMul (mstores m 1024 [x, y, s]) 1024 96 1024 64 = some m' ∧
      Holds m' 1024 (encodedWords (s.toNat • P)) ∧ Ready m' V := by
  have hpointer : Holds (mstores m 1024 [x, y, s]) 64 [1024] :=
    h.pointer.mstores (.inl (by simp))
  have hpoint : Holds (mstores m 1024 [x, y, s]) 128 (encodedWords V) :=
    h.point.mstores (.inl (by simp [encodedWords]))
  refine ⟨_, staticcall_eq (holds_mstores _ _ _) rfl (ecMul_words hP) rfl, holds_write _ _ _, ?_⟩
  exact ⟨hpointer.write (.inl (by simp)), hpoint.write (.inl (by simp [encodedWords]))⟩

/-- It is added to what has been combined. -/
theorem ecAdd_ready {Q : G1} (hQ : Holds m 1024 (encodedWords Q)) (h : Ready m V) :
    ∃ m', staticcall (precompiles c).ecAdd (mstores m 1088 (encodedWords V)) 1024 128 128 64 =
      some m' ∧ Ready m' (Q + V) := by
  have hsum : Holds (mstores m 1088 (encodedWords V)) 1024 (encodedWords Q ++ encodedWords V) :=
    hQ.mstores_append rfl _
  have hpointer : Holds (mstores m 1088 (encodedWords V)) 64 [1024] :=
    h.pointer.mstores (.inl (by simp))
  refine ⟨_, staticcall_eq hsum rfl (ecAdd_words _ _) rfl, ?_⟩
  exact ⟨hpointer.write (.inl (by simp)), holds_write _ _ _⟩

/-- **One signal.** -/
theorem g1MulAccC_eq (h : Ready m V) (hP : decodeG1 x y = some P) :
    ∃ m', g1MulAccC (precompiles c) 128 x y s m = some m' ∧ Ready m' (s.toNat • P + V) := by
  have hIn : (mload m 64).toNat = 1024 := by
    rw [h.pointer.mload]
    rfl
  obtain ⟨m₁, hmul, hholds, hready⟩ := ecMul_ready (c := c) (s := s) h hP
  obtain ⟨m₂, hadd, hready₂⟩ := ecAdd_ready (c := c) hholds hready
  have hx : mload m₁ 128 = (encodeG1 V).1 :=
    hready.point.mload_at (by decide : 128 = 128 + 32 * 0) rfl
  have hpoint : Holds (mstore m₁ 1088 (encodeG1 V).1) 128 (encodedWords V) :=
    hready.point.mstore (.inl (by simp [encodedWords]))
  have hy : mload (mstore m₁ 1088 (encodeG1 V).1) (128 + 32) = (encodeG1 V).2 :=
    hpoint.mload_at (by decide : 128 + 32 = 128 + 32 * 1) rfl
  refine ⟨m₂, ?_, hready₂⟩
  unfold g1MulAccC
  rw [hIn]
  refine Option.bind_eq_some_iff.mpr ⟨m₁, hmul, ?_⟩
  rw [hx]
  change staticcall _ (mstore (mstore m₁ 1088 (encodeG1 V).1) 1120 (mload (mstore m₁ 1088 _)
    (128 + 32))) 1024 128 128 64 = some m₂
  rw [hy]
  exact hadd

variable {ics : List (UInt256 × UInt256)} {points : List G1}

/-- The words of points. -/
def DecodeAll (ics : List (UInt256 × UInt256)) (points : List G1) : Prop :=
  List.Forall₂ (fun p P => decodeG1 p.1 p.2 = some P) ics points

theorem decodeAll_unique : ∀ {ics : List (UInt256 × UInt256)} {ps qs : List G1},
    DecodeAll ics ps → DecodeAll ics qs → ps = qs
  | [], _, _, .nil, .nil => rfl
  | _ :: _, _, _, .cons hp hps, .cons hq hqs =>
    congrArg₂ List.cons (Option.some.inj (hp.symm.trans hq)) (decodeAll_unique hps hqs)

/-- **All signals**, from the `n`-th on. -/
theorem foldlM_g1MulAccC : ∀ {ics : List (UInt256 × UInt256)} {points : List G1}
    {signals : List UInt256} {n : ℕ} {m : ByteMemory} {V : G1}, DecodeAll ics points →
    signals.length = ics.length → Holds args (argSignals + 32 * n) signals → Ready m V →
    ∃ m', (ics.zipIdx n).foldlM (fun m p =>
        g1MulAccC (precompiles c) 128 p.1.1 p.1.2 (mload args (argSignals + 32 * p.2)) m) m =
      some m' ∧
      Ready m' ((points.zip (signals.map BitVec.toNat)).foldl accumulate V)
  | [], _, [], _, m, _, .nil, _, _, hready => ⟨m, rfl, hready⟩
  | ic :: ics, P :: points, s :: signals, n, m, V, .cons hP hrest, hlen, hargs, hready => by
    obtain ⟨hs, hsignals⟩ := holds_cons.mp hargs
    obtain ⟨m₁, hone, hready₁⟩ := g1MulAccC_eq (c := c) (s := s) hready hP
    have hnext : argSignals + 32 * n + 32 = argSignals + 32 * (n + 1) := by omega
    rw [hnext] at hsignals
    obtain ⟨m₂, hmore, hready₂⟩ := foldlM_g1MulAccC hrest (Nat.succ.inj hlen) hsignals hready₁
    refine ⟨m₂, ?_, hready₂⟩
    rw [List.zipIdx_cons, List.foldlM_cons]
    refine Option.bind_eq_some_iff.mpr ⟨m₁, ?_, hmore⟩
    rw [hs.mload]
    exact hone

/-! ### The pairing -/

theorem list_mk (g₁ : UInt256 × UInt256) (g₂ : (UInt256 × UInt256) × (UInt256 × UInt256)) :
    (PairWords.mk g₁ g₂).list = [g₁.1, g₁.2] ++ [g₂.1.1, g₂.1.2, g₂.2.1, g₂.2.2] := rfl

theorem pair_append (x y : UInt256) (ws : List UInt256) : [x, y] ++ ws = [x] ++ ([y] ++ ws) := rfl

/-- The first two pairs that are handed to the pairing. -/
def proofWords (vk : VerifyingKeyWords) (points : ProofPoints) : List UInt256 :=
  [points.pA.1, negateY points.pA.2] ++
    [points.pB.1.1, points.pB.1.2, points.pB.2.1, points.pB.2.2] ++ [vk.alpha.1, vk.alpha.2] ++
    [vk.beta.1.1, vk.beta.1.2, vk.beta.2.1, vk.beta.2.2]

/-- The words of the opposite point. -/
def negate (p : UInt256 × UInt256) : UInt256 × UInt256 := (p.1, negateY p.2)

/-- All four. -/
def pairWords (vk : VerifyingKeyWords) (points : ProofPoints) (X : G1) : List PairWords :=
  [⟨negate points.pA, points.pB⟩, ⟨vk.alpha, vk.beta⟩, ⟨encodeG1 X, vk.gamma⟩,
    ⟨points.pC, vk.delta⟩]

section Arguments
variable {vk : VerifyingKeyWords} {points : ProofPoints} {signals : List UInt256} {X : G1}

theorem holds_calldata (points : ProofPoints) (signals : List UInt256) :
    Holds (calldata points signals) 0 (pointWords points ++ signals) := holds_ofBytes _

theorem holds_signals (points : ProofPoints) (signals : List UInt256) :
    Holds (calldata points signals) argSignals signals := by
  have h := (holds_append.mp (holds_calldata points signals)).2
  simpa [pointWords, argSignals] using h

/-- The words of the proof that are read. -/
structure ReadsProof (args : ByteMemory) (points : ProofPoints) : Prop where
  a : mload args argA = points.pA.1 ∧ mload args (argA + 32) = points.pA.2
  b : mload args argB = points.pB.1.1 ∧ mload args (argB + 32) = points.pB.1.2 ∧
    mload args (argB + 64) = points.pB.2.1 ∧ mload args (argB + 96) = points.pB.2.2
  c : mload args argC = points.pC.1 ∧ mload args (argC + 32) = points.pC.2

theorem readsProof_calldata (points : ProofPoints) (signals : List UInt256) :
    ReadsProof (calldata points signals) points := by
  have h := holds_calldata points signals
  exact ⟨⟨h.mload_at (by decide : argA = 0 + 32 * 0) rfl,
      h.mload_at (by decide : argA + 32 = 0 + 32 * 1) rfl⟩,
    ⟨h.mload_at (by decide : argB = 0 + 32 * 2) rfl,
      h.mload_at (by decide : argB + 32 = 0 + 32 * 3) rfl,
      h.mload_at (by decide : argB + 64 = 0 + 32 * 4) rfl,
      h.mload_at (by decide : argB + 96 = 0 + 32 * 5) rfl⟩,
    ⟨h.mload_at (by decide : argC = 0 + 32 * 6) rfl,
      h.mload_at (by decide : argC + 32 = 0 + 32 * 7) rfl⟩⟩

theorem holds_writeProof (hargs : ReadsProof args points) (h : Holds m 128 (encodedWords X)) :
    Holds (writeProof vk args 256 m) 256 (proofWords vk points) ∧
      Holds (writeProof vk args 256 m) 128 (encodedWords X) := by
  unfold writeProof
  dsimp only
  rw [hargs.a.1, hargs.a.2, hargs.b.1, hargs.b.2.1, hargs.b.2.2.1, hargs.b.2.2.2]
  constructor
  · unfold proofWords
    have hA := holds_mstores [points.pA.1, negateY points.pA.2] m 256
    have hB := hA.mstores_append (q := 256 + 64) (by simp)
      [points.pB.1.1, points.pB.1.2, points.pB.2.1, points.pB.2.2]
    have halpha := hB.mstores_append (q := 256 + 192) (by simp) [vk.alpha.1, vk.alpha.2]
    exact halpha.mstores_append (q := 256 + 256) (by simp)
      [vk.beta.1.1, vk.beta.1.2, vk.beta.2.1, vk.beta.2.2]
  · refine (((h.mstores ?_).mstores ?_).mstores ?_).mstores ?_ <;>
      exact .inl (by simp [encodedWords])

theorem holds_writeSignals (hargs : ReadsProof args points)
    (hproof : Holds m 256 (proofWords vk points)) (h : Holds m 128 (encodedWords X)) :
    Holds (writeSignals vk args 256 128 m) 256
      ((pairWords vk points X).flatMap PairWords.list) := by
  have hx : mload m 128 = (encodeG1 X).1 := h.mload_at (by decide : 128 = 128 + 32 * 0) rfl
  have hpoint : Holds (mstore m (256 + 384) (encodeG1 X).1) 128 (encodedWords X) :=
    h.mstore (.inl (by simp [encodedWords]))
  have hy : mload (mstore m (256 + 384) (encodeG1 X).1) (128 + 32) = (encodeG1 X).2 :=
    hpoint.mload_at (by decide : 128 + 32 = 128 + 32 * 1) rfl
  unfold writeSignals
  rw [hargs.c.1, hargs.c.2, hx]
  dsimp only
  rw [hy]
  have hwords : (pairWords vk points X).flatMap PairWords.list = proofWords vk points ++
      [(encodeG1 X).1] ++ [(encodeG1 X).2] ++
      [vk.gamma.1.1, vk.gamma.1.2, vk.gamma.2.1, vk.gamma.2.2] ++ [points.pC.1, points.pC.2] ++
      [vk.delta.1.1, vk.delta.1.2, vk.delta.2.1, vk.delta.2.2] := by
    rw [pairWords, proofWords, List.flatMap_cons, List.flatMap_cons, List.flatMap_cons,
      List.flatMap_cons, List.flatMap_nil]
    rw [list_mk, list_mk, list_mk, list_mk, negate]
    simp only [List.append_assoc, List.append_nil]
    rw [pair_append (encodeG1 X).1]
  rw [hwords]
  have hX := (hproof.mstores_append (q := 256 + 384) (by simp [proofWords])
    [(encodeG1 X).1]).mstores_append (q := 256 + 416) (by simp [proofWords])
    [(encodeG1 X).2]
  have hgamma := hX.mstores_append (q := 256 + 448) (by simp [proofWords])
    [vk.gamma.1.1, vk.gamma.1.2, vk.gamma.2.1, vk.gamma.2.2]
  have hC := hgamma.mstores_append (q := 256 + 576) (by simp [proofWords])
    [points.pC.1, points.pC.2]
  exact hC.mstores_append (q := 256 + 640) (by simp [proofWords])
    [vk.delta.1.1, vk.delta.1.2, vk.delta.2.1, vk.delta.2.2]

open Classical in
/-- What the verifier makes of the pairs: one or zero. -/
noncomputable def isOne (c : Pairing G₂ T) (ws : List PairWords) : UInt256 :=
  match ws.mapM (PairWords.decode c) with
  | none => 0
  | some pairs => if (pairs.map fun p => c.pairing p.1 p.2).sum = 0 then 1 else 0

theorem staticcall_ecPairing {ws : List PairWords}
    (h : Holds m 256 (ws.flatMap PairWords.list)) (hlen : ws.length = 4) :
    (match staticcall (precompiles c).ecPairing m 256 768 256 32 with
      | none => (0 : UInt256)
      | some m => 1 &&& mload m 256) = isOne c ws := by
  have hread : read m 256 768 = words (ws.flatMap PairWords.list) := by
    refine h.read ?_
    have hbytes := length_pairWords ws
    rw [length_words, hlen] at hbytes
    omega
  have hcall : (precompiles c).ecPairing = ecPairing c := rfl
  rw [staticcall, hread, hcall, ecPairing_words, isOne]
  cases ws.mapM (PairWords.decode c) with
  | none => rfl
  | some pairs =>
    rw [Option.map_some, Option.map_some]
    dsimp only
    have hstored : ∀ x : UInt256, mload (write m 256 ((word x).take 32)) 256 = x := fun x => by
      have htake : (word x).take 32 = word x := List.take_of_length_le (length_word x).le
      rw [htake]
      exact (holds_mstore m 256 x).mload
    rw [hstored]
    split_ifs <;> rfl

/-- **What the pairing says** of the points of the proof, the key and the signals. -/
theorem checkPairing_eq (hargs : ReadsProof args points) (hsignals : Holds args argSignals signals)
    (hlen : signals.length = vk.ics.length) (hic : decodeG1 vk.ic.1 vk.ic.2 = some P)
    {ics : List G1} (hics : DecodeAll vk.ics ics) (hm : Holds m 64 [1024]) :
    checkPairing (precompiles c) vk args 128 m = some (isOne c (pairWords vk points
      ((ics.zip (signals.map BitVec.toNat)).foldl accumulate P))) := by
  have hwords : encodedWords P = [vk.ic.1, vk.ic.2] := by
    rw [encodedWords, encodeG1_of_decodeG1 hic]
  have hready : Ready (mstores m 128 [vk.ic.1, vk.ic.2]) P :=
    ⟨hm.mstores (.inl (by simp)), hwords ▸ holds_mstores _ _ _⟩
  obtain ⟨m', hcombine, hready'⟩ := foldlM_g1MulAccC (c := c) (n := 0) hics hlen hsignals hready
  have hproof : Holds (writeProof vk args 256 m') 256 (proofWords vk points) ∧ _ :=
    holds_writeProof hargs hready'.point
  have hpairs := holds_writeSignals hargs hproof.1 hproof.2
  have hpair : 128 + pPairing = 256 := rfl
  have hpoint : 128 + pVk = 128 := rfl
  rw [checkPairing, hpair, hpoint]
  refine Option.bind_eq_some_iff.mpr ⟨m', hcombine, ?_⟩
  rw [← staticcall_ecPairing hpairs rfl]
  rfl

theorem decode_mk {g₁ : UInt256 × UInt256} {g₂ : (UInt256 × UInt256) × (UInt256 × UInt256)}
    {p : G1 × G₂} : (PairWords.mk g₁ g₂).decode c = some p ↔
      decodeG1 g₁.1 g₁.2 = some p.1 ∧ c.decodeG2 g₂.1 g₂.2 = some p.2 := by
  unfold PairWords.decode
  simp only [Option.bind_eq_bind, Option.bind_eq_some_iff, Option.pure_def, Option.some.injEq]
  constructor
  · rintro ⟨P, hP, Q, hQ, rfl⟩
    exact ⟨hP, hQ⟩
  · rintro ⟨hP, hQ⟩
    exact ⟨p.1, hP, p.2, hQ, rfl⟩

theorem mapM_four {α β : Type} {f : α → Option β} {w₁ w₂ w₃ w₄ : α} {l : List β} :
    [w₁, w₂, w₃, w₄].mapM f = some l ↔ ∃ p₁ p₂ p₃ p₄, f w₁ = some p₁ ∧ f w₂ = some p₂ ∧
      f w₃ = some p₃ ∧ f w₄ = some p₄ ∧ l = [p₁, p₂, p₃, p₄] := by
  simp only [List.mapM_cons, List.mapM_nil, Option.bind_eq_bind, Option.pure_def,
    Option.bind_eq_some_iff, Option.some.injEq]
  constructor
  · rintro ⟨p₁, h₁, _, ⟨p₂, h₂, _, ⟨p₃, h₃, _, ⟨p₄, h₄, _, rfl, rfl⟩, rfl⟩, rfl⟩, rfl⟩
    exact ⟨p₁, p₂, p₃, p₄, h₁, h₂, h₃, h₄, rfl⟩
  · rintro ⟨p₁, p₂, p₃, p₄, h₁, h₂, h₃, h₄, rfl⟩
    exact ⟨p₁, h₁, _, ⟨p₂, h₂, _, ⟨p₃, h₃, _, ⟨p₄, h₄, _, rfl, rfl⟩, rfl⟩, rfl⟩, rfl⟩

theorem isOne_ne_zero {ws : List PairWords} : isOne c ws ≠ 0 ↔
    ∃ pairs, ws.mapM (PairWords.decode c) = some pairs ∧
      (pairs.map fun p => c.pairing p.1 p.2).sum = 0 := by
  unfold isOne
  cases ws.mapM (PairWords.decode c) with
  | none => simp
  | some pairs =>
    dsimp only
    split_ifs with hsum
    · exact ⟨fun _ => ⟨pairs, rfl, hsum⟩, fun _ => by decide⟩
    · refine ⟨fun h => absurd rfl h, ?_⟩
      rintro ⟨pairs', hpairs, hsum'⟩
      obtain rfl := Option.some.inj hpairs
      exact absurd hsum' hsum

/-- The points of a key. -/
structure KeyDecodes (c : Pairing G₂ T) (vk : VerifyingKeyWords) (key : VerifyingKey G1 G₂) :
    Prop where
  alpha : decodeG1 vk.alpha.1 vk.alpha.2 = some key.alpha
  beta : c.decodeG2 vk.beta.1 vk.beta.2 = some key.beta
  gamma : c.decodeG2 vk.gamma.1 vk.gamma.2 = some key.gamma
  delta : c.decodeG2 vk.delta.1 vk.delta.2 = some key.delta
  ic : decodeG1 vk.ic.1 vk.ic.2 = some key.ic
  ics : DecodeAll vk.ics key.ics

/-- The points of a proof; of the first one the code reads the opposite. -/
structure ProofDecodes (c : Pairing G₂ T) (points : ProofPoints) (π : Proof G1 G₂) : Prop where
  a : decodeG1 (negate points.pA).1 (negate points.pA).2 = some (-π.a)
  b : c.decodeG2 points.pB.1 points.pB.2 = some π.b
  c : decodeG1 points.pC.1 points.pC.2 = some π.c

/-- **The pairs are the equation.** -/
theorem isOne_pairWords {ic : G1} {ics : List G1} (hic : decodeG1 vk.ic.1 vk.ic.2 = some ic)
    (hics : DecodeAll vk.ics ics) (values : List ℕ) :
    isOne c (pairWords vk points ((ics.zip values).foldl accumulate ic)) ≠ 0 ↔
      ∃ key π, KeyDecodes c vk key ∧ ProofDecodes c points π ∧
        Verifies c.pairing key π values := by
  rw [isOne_ne_zero, foldl_accumulate, pairWords]
  simp only [mapM_four]
  constructor
  · rintro ⟨_, ⟨⟨A, B⟩, ⟨α, β⟩, ⟨X, γ⟩, ⟨C, δ⟩, h₁, h₂, h₃, h₄, rfl⟩, hsum⟩
    obtain ⟨hA, hB⟩ := decode_mk.mp h₁
    obtain ⟨hα, hβ⟩ := decode_mk.mp h₂
    obtain ⟨hX, hγ⟩ := decode_mk.mp h₃
    obtain ⟨hC, hδ⟩ := decode_mk.mp h₄
    obtain rfl := Option.some.inj ((decodeG1_encodeG1 _).symm.trans hX)
    simp only [List.map_cons, List.map_nil, List.sum_cons, List.sum_nil] at hsum
    have hequation := sum_eq_zero_iff c.pairing ⟨α, β, γ, δ, ic, ics⟩ ⟨-A, B, C⟩ values
    rw [neg_neg] at hequation
    exact ⟨⟨α, β, γ, δ, ic, ics⟩, ⟨-A, B, C⟩, ⟨hα, hβ, hγ, hδ, hic, hics⟩,
      ⟨by rw [neg_neg]; exact hA, hB, hC⟩, hequation.mp hsum⟩
  · rintro ⟨key, π, hkey, hproof, hverifies⟩
    obtain rfl : key.ic = ic := Option.some.inj (hkey.ic.symm.trans hic)
    obtain rfl : key.ics = ics := decodeAll_unique hkey.ics hics
    refine ⟨_, ⟨(-π.a, π.b), (key.alpha, key.beta), (key.combine values, key.gamma),
      (π.c, key.delta), decode_mk.mpr ⟨hproof.a, hproof.b⟩, decode_mk.mpr ⟨hkey.alpha, hkey.beta⟩,
      decode_mk.mpr ⟨decodeG1_encodeG1 _, hkey.gamma⟩, decode_mk.mpr ⟨hproof.c, hkey.delta⟩, rfl⟩,
      ?_⟩
    simp only [List.map_cons, List.map_nil, List.sum_cons, List.sum_nil]
    exact (sum_eq_zero_iff c.pairing key π values).mpr hverifies

end Arguments

end Memory

/-! ### The verifiers -/

/-- The generated verifiers. -/
def generatedKeys : List VerifyingKeyWords :=
  [depositKey, privateTransferKey, withdrawKey, privateTransferKeyV11, withdrawKeyV11]

theorem depositKey_mem : depositKey ∈ generatedKeys := List.mem_cons_self

theorem privateTransferKey_mem : privateTransferKey ∈ generatedKeys :=
  List.mem_cons_of_mem _ List.mem_cons_self

theorem withdrawKey_mem : withdrawKey ∈ generatedKeys :=
  List.mem_cons_of_mem _ (List.mem_cons_of_mem _ List.mem_cons_self)

theorem privateTransferKeyV11_mem : privateTransferKeyV11 ∈ generatedKeys :=
  List.mem_cons_of_mem _ (List.mem_cons_of_mem _ (List.mem_cons_of_mem _ List.mem_cons_self))

theorem withdrawKeyV11_mem : withdrawKeyV11 ∈ generatedKeys :=
  List.mem_cons_of_mem _ (List.mem_cons_of_mem _ (List.mem_cons_of_mem _
    (List.mem_cons_of_mem _ List.mem_cons_self)))

theorem length_depositKey : depositKey.ics.length = 6 := by
  simp only [depositKey, List.length_cons, List.length_nil]

theorem length_privateTransferKey : privateTransferKey.ics.length = 10 := by
  simp only [privateTransferKey, List.length_cons, List.length_nil]

theorem length_withdrawKey : withdrawKey.ics.length = 10 := by
  simp only [withdrawKey, List.length_cons, List.length_nil]

theorem length_privateTransferKeyV11 : privateTransferKeyV11.ics.length = 12 := by
  simp only [privateTransferKeyV11, List.length_cons, List.length_nil]

theorem length_withdrawKeyV11 : withdrawKeyV11.ics.length = 12 := by
  simp only [withdrawKeyV11, List.length_cons, List.length_nil]

/-- The points of the keys are on the curve. -/
theorem onCurve_generatedKeys :
    ∀ vk ∈ generatedKeys, ∀ p ∈ vk.alpha :: vk.ic :: vk.ics, OnCurve p.1 p.2 := by
  -- as a test of the list: the instance that is found for the statement may not compute
  have hall : (generatedKeys.all fun vk => (vk.alpha :: vk.ic :: vk.ics).all fun p =>
      decide (OnCurve p.1 p.2)) = true := by
    decide +kernel
  intro vk hvk p hp
  have hpoints := List.all_eq_true.mp hall vk hvk
  exact of_decide_eq_true (List.all_eq_true.mp hpoints p hp)

theorem decodeAll_of_onCurve : ∀ {ics : List (UInt256 × UInt256)},
    (∀ p ∈ ics, OnCurve p.1 p.2) → ∃ points, DecodeAll ics points
  | [], _ => ⟨[], .nil⟩
  | p :: ics, h => by
    obtain ⟨hp, hics⟩ := List.forall_mem_cons.mp h
    obtain ⟨P, hP⟩ := decodeG1_of_onCurve hp
    obtain ⟨points, hpoints⟩ := decodeAll_of_onCurve hics
    exact ⟨P :: points, .cons hP hpoints⟩

/-- The check of the signals. -/
theorem all_signals {n : ℕ} {points : ProofPoints} {signals : List Bytes32}
    (hlen : signals.length = n) :
    ((List.range n).all fun i =>
        isFieldElement (mload (calldata points signals) (argSignals + 32 * i))) = true ↔
      ∀ s ∈ signals, isFieldElement s := by
  have hsignals := holds_signals points signals
  rw [List.all_eq_true]
  constructor
  · intro h s hs
    obtain ⟨i, hi, rfl⟩ := List.getElem_of_mem hs
    have hcheck := h i (List.mem_range.mpr (by omega))
    rw [hsignals.mload_at rfl (List.getElem?_eq_getElem hi)] at hcheck
    exact of_decide_eq_true hcheck
  · intro h i hi
    have hlt : i < signals.length := by
      rw [List.mem_range] at hi
      omega
    rw [hsignals.mload_at rfl (List.getElem?_eq_getElem hlt)]
    exact decide_eq_true (h _ (List.getElem_mem hlt))

/-- **The points of a proof satisfy the equation** of a key for the signals. -/
def Satisfies {G₂ T : Type} [AddCommGroup G₂] [AddCommGroup T] (c : Pairing G₂ T)
    (vk : VerifyingKeyWords) (points : ProofPoints) (signals : List Bytes32) : Prop :=
  ∃ key π, KeyDecodes c vk key ∧ ProofDecodes c points π ∧
    Verifies c.pairing key π (signals.map BitVec.toNat)

/-- **The generated verifiers check the equation of Groth16.** They accept exactly those signals
that are reduced, with points that satisfy it. -/
theorem verifyProof_eq_true {G₂ T : Type} [AddCommGroup G₂] [AddCommGroup T] {c : Pairing G₂ T}
    {vk : VerifyingKeyWords} (hvk : vk ∈ generatedKeys) {points : ProofPoints}
    {signals : List Bytes32} (hlen : signals.length = vk.ics.length) :
    verifyProof (precompiles c) vk points signals = true ↔
      (∀ s ∈ signals, isFieldElement s) ∧ Satisfies c vk points signals := by
  obtain ⟨hon, hons⟩ := List.forall_mem_cons.mp
    (List.forall_mem_cons.mp (onCurve_generatedKeys vk hvk)).2
  obtain ⟨ic, hic⟩ := decodeG1_of_onCurve hon
  obtain ⟨ics, hics⟩ := decodeAll_of_onCurve hons
  have hstart : (mload (mstore (fun _ => 0) 64 128) 64).toNat = 128 := by
    rw [(holds_mstore _ 64 128).mload]
    rfl
  have hpointer : Holds (mstore (mstore (fun _ => 0) 64 128) 64 1024) 64 [1024] :=
    holds_mstore _ _ _
  have hnext : BitVec.ofNat 256 (128 + pLastMem) = 1024 := rfl
  have hcheck := checkPairing_eq (readsProof_calldata points signals) (holds_signals points signals)
    hlen (c := c) hic hics hpointer
  unfold verifyProof
  dsimp only
  rw [hstart, hnext, hcheck]
  split_ifs with hfield
  · rw [all_signals hlen] at hfield
    rw [decide_eq_true_iff, isOne_pairWords hic hics]
    exact ⟨fun h => ⟨hfield, h⟩, fun h => h.2⟩
  · rw [all_signals hlen] at hfield
    exact ⟨fun h => absurd h (by decide), fun h => absurd h.1 hfield⟩
/-- For a proof whose first point is reduced, the words are those of its points. -/
theorem proofDecodes_iff {G₂ T : Type} [AddCommGroup G₂] [AddCommGroup T] {c : Pairing G₂ T}
    {points : ProofPoints} {π : Proof G1 G₂} (h : points.pA.2.toNat < baseField) :
    ProofDecodes c points π ↔ decodeG1 points.pA.1 points.pA.2 = some π.a ∧
      c.decodeG2 points.pB.1 points.pB.2 = some π.b ∧
        decodeG1 points.pC.1 points.pC.2 = some π.c := by
  have ha : decodeG1 (negate points.pA).1 (negate points.pA).2 = some (-π.a) ↔
      decodeG1 points.pA.1 points.pA.2 = some π.a := by
    unfold negate
    rw [decodeG1_negateY h]
    cases decodeG1 points.pA.1 points.pA.2 with
    | none => simp
    | some P => simp
  rw [← ha]
  exact ⟨fun ⟨h1, h2, h3⟩ => ⟨h1, h2, h3⟩, fun ⟨h1, h2, h3⟩ => ⟨h1, h2, h3⟩⟩

-- from here on only the equation matters
attribute [irreducible] verifyProof

end Nullark.Verifier.Groth16
