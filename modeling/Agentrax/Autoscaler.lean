import Agentrax.ClusterObjects

/-! `internal/scaling`: the managed HorizontalPodAutoscaler and its quota cap. -/
namespace Agentrax.Autoscaler
open ApiTypes ClusterObjects

def metricGPUUtilization : String := "gpuUtilization"
def customMetricQueueDepth : String := "agentrax_queue_depth"
def customMetricGPUUtilization : String := "agentrax_gpu_utilization"
def scaleUpStabilizationSec : Int32 := 60
def scaleDownStabilizationSec : Int32 := 300

def hpaLabels (ad : AgentDeployment) : Labels :=
  [("app.kubernetes.io/name", ad.key.name), ("app.kubernetes.io/managed-by", "agentrax"),
   ("agentrax.io/tenant", ad.spec.tenantRef)]

/-- An unknown metric falls back to the queue depth. -/
def customMetricNameFor (metric : String) : String :=
  if metric = metricGPUUtilization then customMetricGPUUtilization else customMetricQueueDepth

/-- maxReplicas is capped by the quota headroom, but never below minReplicas. -/
def buildHPA (ad : AgentDeployment) (quotaHeadroom : Int32) : HorizontalPodAutoscaler :=
  let capped := if quotaHeadroom < ad.spec.replicas.max then quotaHeadroom else ad.spec.replicas.max
  let minReplicas := ad.spec.replicas.min
  { labels := hpaLabels ad
    scaleTargetRef := ad.key.name
    minReplicas := minReplicas
    maxReplicas := if capped < minReplicas then minReplicas else capped
    metric :=
      { name := customMetricNameFor ad.spec.replicas.metric
        selector := [("app_kubernetes_io_name", ad.key.name),
          ("app_kubernetes_io_managed_by", "agentrax")]
        averageMilliValue := ad.spec.replicas.target.toInt64 * 1000 }
    scaleUp := ⟨scaleUpStabilizationSec, "Max", 4, 60⟩
    scaleDown := ⟨scaleDownStabilizationSec, "Min", 1, 60⟩ }

def isQuotaCapped (ad : AgentDeployment) (quotaHeadroom : Int32) : Bool :=
  decide (quotaHeadroom < ad.spec.replicas.max)

/-- The per-agent ceiling or what the other agents leave, whichever is smaller. -/
def quotaHeadroom (tqSpec : TenantQuotaSpec) (usedReplicasByOthers : Int32) : Int32 :=
  let remaining := tqSpec.maxTotalReplicas - usedReplicasByOthers
  let totalBudgetRemaining := if remaining < 0 then 0 else remaining
  if totalBudgetRemaining < tqSpec.maxReplicasPerAgent then totalBudgetRemaining
  else tqSpec.maxReplicasPerAgent

end Agentrax.Autoscaler
