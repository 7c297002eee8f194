import Allfeat.U256
import Allfeat.BalanceConvert
import Allfeat.Weight
import Allfeat.BenchmarkWeights
import Allfeat.TaskManager
import Allfeat.NodeService
import Allfeat.WeightToFee
