import JVectorBench.Python
import JVectorBench.Heapq
import JVectorBench.Heapq.Order
import JVectorBench.Numpy
import JVectorBench.Tracker
import JVectorBench.TopK
import JVectorBench.Metric
import JVectorBench.Dimension
import JVectorBench.Ties
import JVectorBench.Recall
import JVectorBench.Indexing
import JVectorBench.Harness
import JVectorBench.Csv
import JVectorBench.PyInt
import JVectorBench.MergeLog
import JVectorBench.KnnStats
import JVectorBench.SearchWithStats
