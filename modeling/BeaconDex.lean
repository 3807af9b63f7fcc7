import BeaconDex.Confinement
import BeaconDex.DoubleSatisfaction
import BeaconDex.Lineage
import BeaconDex.OrderTraces
import BeaconDex.Backend.Ancestry
import BeaconDex.Backend.ArbitrageExecution
import BeaconDex.Backend.ArbitrageSearch
import BeaconDex.Backend.AssetIdGrammar
import BeaconDex.Backend.AssetIdentity
import BeaconDex.Backend.BatchDistinct
import BeaconDex.Backend.BuilderRefinement
import BeaconDex.Backend.CancelRefinement
import BeaconDex.Backend.ClosedLineages
import BeaconDex.Backend.Codec
import BeaconDex.Backend.CreateAgreement
import BeaconDex.Backend.IndexerGuarantees
import BeaconDex.Backend.KoiosGuarantees
import BeaconDex.Backend.LineageRepair
import BeaconDex.Backend.LiveBook
import BeaconDex.Backend.OrderIndependence
import BeaconDex.Backend.PairIdentity
import BeaconDex.Backend.RankAgreement
import BeaconDex.Backend.RefreshLimit
import BeaconDex.Backend.RepoAgreement
import BeaconDex.Backend.Revalidation
import BeaconDex.Backend.SettingsSwap
import BeaconDex.Backend.SmartFillGuarantees
import BeaconDex.Backend.TakerNet
import BeaconDex.Frontend.FillHistory
import BeaconDex.Frontend.LimitTab
import BeaconDex.Frontend.MarketTab
import BeaconDex.Frontend.OrderBook
import BeaconDex.Frontend.Pricing
import BeaconDex.Frontend.RouteExecution
import BeaconDex.Frontend.Tokens
import BeaconDex.Frontend.TxFlow
import BeaconDex.Frontend.TxHistory
import BeaconDex.Frontend.WalletAdapter
